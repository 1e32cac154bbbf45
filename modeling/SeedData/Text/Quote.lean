/-
Quoted text. Three characters quote: `"`, `'` and the backquote; a quotation
runs to the next use of the character that opened it, or to the end. Readers of
schema text look for separators outside quotations only: `breakOutside` cuts at
the first one, `splitOutside` at each, `countOutside` counts them.
-/
import SeedData.Text.Blank

namespace SeedData.Text

/-- The characters that open and close a quotation. -/
def isQuote (c : Char) : Bool := c == '"' || c == '\'' || c == '\x60'

/-- The text inside one pair of surrounding quotes, trimmed within and without;
text that no such pair surrounds is only trimmed. -/
def unquote (s : List Char) : List Char :=
  match trim s with
  | [] => []
  | q :: r => if isQuote q && r.getLast? == some q then trim r.dropLast else q :: r

/-- The quotation that is open after `c`, given the one open before it. -/
def quoteAfter : Option Char → Char → Option Char
  | none, c => if isQuote c then some c else none
  | some q, c => if c = q then none else some q

/-- Whether `c` stands outside quotations, given the one open before it. The
quotes themselves do not. -/
def isOutside (quote : Option Char) (c : Char) : Bool := quote.isNone && !isQuote c

/-- The text before the first character outside quotations that satisfies `p`,
and the text from that character on; the second is empty if there is none. -/
def breakOutside (p : Char → Bool) : Option Char → List Char → List Char × List Char
  | _, [] => ([], [])
  | quote, c :: r =>
    if isOutside quote c && p c then ([], c :: r)
    else
      let (before, rest) := breakOutside p (quoteAfter quote c) r
      (c :: before, rest)

/-- The first character outside quotations that satisfies `p`. -/
def findOutside (p : Char → Bool) (s : List Char) : Option Char := (breakOutside p none s).2.head?

/-- The text after the first character outside quotations that satisfies `p`. -/
def afterOutside? (p : Char → Bool) (s : List Char) : Option (List Char) :=
  match (breakOutside p none s).2 with
  | [] => none
  | _ :: r => some r

/-- The pieces between the characters outside quotations that satisfy `p`. -/
def splitOutside (p : Char → Bool) : Option Char → List Char → List (List Char)
  | _, [] => [[]]
  | quote, c :: r =>
    if isOutside quote c && p c then [] :: splitOutside p none r
    else match splitOutside p (quoteAfter quote c) r with
      | [] => [[c]]
      | w :: ws => (c :: w) :: ws

def countOutside (p : Char → Bool) : Option Char → List Char → Nat
  | _, [] => 0
  | quote, c :: r =>
    (if isOutside quote c && p c then 1 else 0) + countOutside p (quoteAfter quote c) r

/-! ## Nothing is lost and nothing added -/

theorem breakOutside_append (p : Char → Bool) (quote : Option Char) (s : List Char) :
    (breakOutside p quote s).1 ++ (breakOutside p quote s).2 = s := by
  induction s generalizing quote with
  | nil => rfl
  | cons c r ih =>
    simp only [breakOutside]
    split
    · rfl
    · simp [ih]

theorem afterOutside?_length {p : Char → Bool} {s r : List Char} (h : afterOutside? p s = some r) :
    r.length < s.length := by
  have happ := breakOutside_append p none s
  simp only [afterOutside?] at h
  split at h
  · simp at h
  · rename_i c r' heq
    rw [Option.some.injEq] at h
    subst h
    rw [← happ, heq, List.length_append, List.length_cons]
    omega

end SeedData.Text
