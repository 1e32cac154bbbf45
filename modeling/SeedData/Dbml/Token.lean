/-
The pieces that a line of schema text is read by: keywords, names and the two
marks that tell a block from a directive.

A name is a run of quotations and of characters that need no quotes. What may
stand bare differs from place to place, so `takeAtoms` takes it as a parameter.
-/
import SeedData.Text.Quote

namespace SeedData.Dbml

open Text

/-! ## Keywords -/

/-- The ASCII letters, digits and underscores that a line starts with, in lower
case. -/
def leadingKeyword (line : List Char) : List Char :=
  (line.takeWhile fun c => c.isAlphanum || c == '_').map Char.toLower

/-- What follows the keyword of a line, without the blanks in front. -/
def afterKeyword (keyword line : List Char) : List Char := trimLeft (line.drop keyword.length)

/-- Whether a colon or an opening brace follows the keyword. -/
def isDirective (keyword line : List Char) : Bool :=
  match afterKeyword keyword line with
  | c :: _ => c == ':' || c == '\x7b'
  | [] => false

/-- Whether an opening brace follows the keyword, or nothing. -/
def opensBlock (keyword line : List Char) : Bool :=
  match afterKeyword keyword line with
  | c :: _ => c == '\x7b'
  | [] => true

/-- Whether a line heads a block: a brace comes before any colon, or there is
neither in a line of three words at most. -/
def isBlockHeader (line : List Char) : Bool :=
  match findOutside (fun c => c == ':' || c == '\x7b') line with
  | some c => c == '\x7b'
  | none => (words line).length ≤ 3

/-! ## Names -/

/-- Takes the longest run of bare characters and of enclosed pieces. `closer`
gives the character that ends a piece opened by its argument; one that has no end
is not taken. -/
def takeAtoms (closer : Char → Option Char) (bare : Char → Bool) :
    Option Char → List Char → List Char × List Char
  | _, [] => ([], [])
  | some close, c :: r =>
    let (taken, rest) := takeAtoms closer bare (if c = close then none else some close) r
    (c :: taken, rest)
  | none, c :: r =>
    match closer c with
    | some close =>
      if r.contains close then
        let (taken, rest) := takeAtoms closer bare (some close) r
        (c :: taken, rest)
      else ([], c :: r)
    | none =>
      if bare c then
        let (taken, rest) := takeAtoms closer bare none r
        (c :: taken, rest)
      else ([], c :: r)

/-- The end of a quotation is the character that opened it. -/
def quoteCloser (c : Char) : Option Char := if isQuote c then some c else none

/-- What may stand bare in a name: neither blanks nor opening brackets or braces. -/
def isNameChar (c : Char) : Bool := !isBlank c && c != '[' && c != '\x7b'

/-- The name that a text starts with, and the rest; empty if there is none. -/
def takeName (s : List Char) : List Char × List Char := takeAtoms quoteCloser isNameChar none s

def joinParts (name : List Char) : List Char :=
  join ['.'] ((splitOutside (· == '.') none name).map unquote)

/-- The name after at least one blank, and the rest. -/
def nameAfterBlank? (s : List Char) : Option (List Char × List Char) :=
  match s with
  | c :: _ =>
    if isBlank c then
      let (name, rest) := takeName (trimLeft s)
      if name.isEmpty then none else some (name, rest)
    else none
  | [] => none

/-! ## Block headers -/

/-- The word that introduces an alias, and what follows it. Case does not count,
and a long s is an s. -/
def afterAs? (s : List Char) : Option (List Char) :=
  match s with
  | a :: b :: r =>
    if (a == 'a' || a == 'A') && (b == 's' || b == 'S' || b == '\u017f') then some r else none
  | _ => none

/-- The alias that follows the name of a table, if one does. -/
def alias? (rest : List Char) : Option (List Char) :=
  match rest with
  | c :: _ =>
    if isBlank c then do
      let r ← afterAs? (trimLeft rest)
      return (← nameAfterBlank? r).1
    else none
  | [] => none

/-- Name and alias of the table that a header line is for, as they are written;
the line starts with the keyword `table`. -/
def tableHeader? (line : List Char) : Option (List Char × Option (List Char)) := do
  let (name, rest) ← nameAfterBlank? (line.drop 5)
  return (name, alias? rest)

/-- The name of the type that a header line is for, as it is written; the line
starts with the keyword `enum`. -/
def enumHeader? (line : List Char) : Option (List Char) := do
  return (← nameAfterBlank? (line.drop 4)).1

end SeedData.Dbml
