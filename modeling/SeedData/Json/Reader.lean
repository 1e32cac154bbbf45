/-
JSON text to values. `Json.parse?` reads one value that fills the whole text, with
blanks around its parts. A number without fraction and exponent is an integer,
unless it is a negated zero or leaves the 64-bit range; every other is a double.
Of two members with one name the later counts.
-/
import SeedData.Json.Value

namespace SeedData.Json

/-- The text without the blanks of the format in front. -/
def skipBlanks (s : List Char) : List Char :=
  s.dropWhile fun c => c == ' ' || c == '\n' || c == '\r' || c == '\t'

/-- The text after a word that it starts with. -/
def after? (word : List Char) (s : List Char) : Option (List Char) :=
  if word.isPrefixOf s then some (s.drop word.length) else none

def hexDigit? (c : Char) : Option Nat :=
  if c.isDigit then some (c.toNat - '0'.toNat)
  else if 'a' ≤ c ∧ c ≤ 'f' then some (c.toNat - 'a'.toNat + 10)
  else if 'A' ≤ c ∧ c ≤ 'F' then some (c.toNat - 'A'.toNat + 10)
  else none

def hexFour? (a b c d : Char) : Option Nat := do
  return ((← hexDigit? a) * 16 + (← hexDigit? b)) * 256 + (← hexDigit? c) * 16 + (← hexDigit? d)

def escaped? (c : Char) : Option Char :=
  match c with
  | '"' | '\\' | '/' => some c
  | 'n' => some '\n'
  | 'r' => some '\r'
  | 't' => some '\t'
  | 'b' => some '\x08'
  | 'f' => some '\x0c'
  | _ => none

/-- A string after its opening quote, and the text after its closing one. A pair
of surrogate escapes is one character; one alone is refused. -/
def readString? (read : List Char) : List Char → Option (String × List Char)
  | '"' :: r => some (String.ofList read.reverse, r)
  | '\\' :: 'u' :: a :: b :: c :: d :: '\\' :: 'u' :: e :: f :: g :: h :: r => do
    let high ← hexFour? a b c d
    let low ← hexFour? e f g h
    if 0xD800 ≤ high ∧ high < 0xDC00 then
      if 0xDC00 ≤ low ∧ low < 0xE000 then
        readString? (Char.ofNat (0x10000 + (high - 0xD800) * 0x400 + (low - 0xDC00)) :: read) r
      else none
    else if 0xDC00 ≤ high ∧ high < 0xE000 then none
    else readString? (Char.ofNat high :: read) ('\\' :: 'u' :: e :: f :: g :: h :: r)
  | '\\' :: 'u' :: a :: b :: c :: d :: r => do
    let n ← hexFour? a b c d
    if 0xD800 ≤ n ∧ n < 0xE000 then none else readString? (Char.ofNat n :: read) r
  | '\\' :: c :: r => do readString? ((← escaped? c) :: read) r
  | c :: r => readString? (c :: read) r
  | [] => none
termination_by s => s.length

/-- The decimal digits that the text starts with, and the rest. -/
def spanDigits (s : List Char) : List Char × List Char := s.span Char.isDigit

def decimal (digits : List Char) : Nat :=
  digits.foldl (fun n c => 10 * n + (c.toNat - '0'.toNat)) 0

/-- The value of a number from its parts. -/
def number (negative : Bool) (whole : List Char) (fraction? : Option (List Char))
    (exponent? : Option Int) : Json :=
  let sign : Int := if negative then -1 else 1
  let n := decimal whole
  let isInt := fraction?.isNone && exponent?.isNone && (if negative then 0 < n && n ≤ 0x8000000000000000 else n < 0x10000000000000000)
  if isInt then .int (sign * n)
  else
    let fraction := fraction?.getD []
    let shift := exponent?.getD 0 - fraction.length
    let magnitude := Float.ofScientific (decimal (whole ++ fraction)) (shift < 0) shift.natAbs
    .float (if negative then -magnitude else magnitude)

/-- A number after its sign, and the rest of the text. -/
def readNumber? (negative : Bool) (s : List Char) : Option (Json × List Char) := do
  let (whole, r) := spanDigits s
  if whole.isEmpty || (1 < whole.length && whole.head? == some '0') then none
  let (fraction?, r) ← match r with
    | '.' :: r =>
      let (digits, r) := spanDigits r
      if digits.isEmpty then none else some (some digits, r)
    | r => some (none, r)
  let (exponent?, r) ← match r with
    | e :: r' =>
      if e == 'e' || e == 'E' then
        let (minus, r') := match r' with
          | '-' :: q => (true, q)
          | '+' :: q => (false, q)
          | q => (false, q)
        let (digits, r') := spanDigits r'
        if digits.isEmpty then none
        else some (some (if minus then -(decimal digits : Int) else decimal digits), r')
      else some (none, r)
    | [] => some (none, r)
  return (number negative whole fraction? exponent?, r)

/-- The members with the one of name `k` set to `v`. -/
def setMember (k : String) (v : Json) (members : List (String × Json)) : List (String × Json) :=
  members.filter (·.1 ≠ k) ++ [(k, v)]

/-- What the reader is in the middle of: an array or an object, and what it has
read of it. -/
inductive Open where
  | elements (read : List Json)
  | members (read : List (String × Json)) (name : String)

/-- Puts a finished value into what is open around it. What is left of the text
decides whether that is finished too; the value comes out when nothing is open. -/
def close : List Open → Json → List Char → Option (Json ⊕ (List Open × List Char))
  | [], v, r => if (skipBlanks r).isEmpty then some (.inl v) else none
  | .elements read :: outer, v, r =>
    match skipBlanks r with
    | ',' :: r => some (.inr (.elements (v :: read) :: outer, r))
    | ']' :: r => close outer (.arr (v :: read).reverse) r
    | _ => none
  | .members read name :: outer, v, r =>
    match skipBlanks r with
    | ',' :: r => some (.inr (.members (setMember name v read) "" :: outer, r))
    | '\x7d' :: r => close outer (.obj (setMember name v read)) r
    | _ => none

/-- The text at the start of a value: the name of a member and the colon are read
first if an object is innermost. -/
def readName? : List Open → List Char → Option (List Open × List Char)
  | .members read _ :: outer, s =>
    match skipBlanks s with
    | '"' :: r => do
      let (name, r) ← readString? [] r
      let r ← after? [':'] (skipBlanks r)
      return (.members read name :: outer, skipBlanks r)
    | _ => none
  | stack, s => some (stack, skipBlanks s)

/-- Reads values until nothing is open. Each takes a character at least, so that
the length of the text bounds how many there are. -/
def readValues : Nat → List Open → List Char → Option Json
  | 0, _, _ => none
  | steps + 1, stack, s => do
    let (stack, s) ← readName? stack s
    let finish := fun (v : Json) (r : List Char) => do
      match ← close stack v r with
      | .inl v => return v
      | .inr (stack, r) => readValues steps stack r
    match s with
    | '[' :: r =>
      match skipBlanks r with
      | ']' :: r => finish (.arr []) r
      | r => readValues steps (.elements [] :: stack) r
    | '\x7b' :: r =>
      match skipBlanks r with
      | '\x7d' :: r => finish (.obj []) r
      | r => readValues steps (.members [] "" :: stack) r
    | '"' :: r => let (text, r) ← readString? [] r; finish (.str text) r
    | '-' :: r => let (v, r) ← readNumber? true r; finish v r
    | 't' :: _ => finish (.bool true) (← after? ['t', 'r', 'u', 'e'] s)
    | 'f' :: _ => finish (.bool false) (← after? ['f', 'a', 'l', 's', 'e'] s)
    | 'n' :: _ => finish .null (← after? ['n', 'u', 'l', 'l'] s)
    | _ => let (v, r) ← readNumber? false s; finish v r

def parse? (text : String) : Option Json := readValues (text.length + 1) [] text.toList

end SeedData.Json
