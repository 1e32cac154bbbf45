/-
The code of a schema text: its lines without comments. `//` starts a comment that
ends with the line, `/*` one that ends with `*/`, which leaves a space behind.
Three apostrophes open a long string, which stays if it closes on its line and is
left out if not. Inside quotes nothing starts.

A comment or a long string that is open at the end of a line is carried over to
the next.
-/
import SeedData.Text.Quote

namespace SeedData.Dbml

/-- What is open between two lines. -/
inductive Carry where
  | code
  | comment
  | longString
  deriving DecidableEq, Repr

/-- What the reader of a line is in. -/
inductive Mode where
  | code
  | comment
  | longString
  /-- A long string that closes on this line. -/
  | shortString
  /-- A quotation, opened by this character. -/
  | quote (opener : Char)
  deriving DecidableEq, Repr

/-- What a mode at the end of a line carries over: a quotation ends with its
line. -/
def Mode.carry : Mode → Carry
  | .comment => .comment
  | .longString => .longString
  | _ => .code

/-- What was carried over, as the mode that a line starts in. -/
def Carry.mode : Carry → Mode
  | .code => .code
  | .comment => .comment
  | .longString => .longString

/-- Whether a long string closes in the rest of a line. -/
def closesLong (s : List Char) : Bool := Text.contains ['\'', '\'', '\''] s

/-- The code of the rest of a line, and what it leaves open. -/
def codeFrom : Mode → List Char → List Char × Carry
  | .comment, '*' :: '/' :: r =>
    let (code, carry) := codeFrom .code r
    (' ' :: code, carry)
  | .comment, _ :: r => codeFrom .comment r
  | .longString, '\'' :: '\'' :: '\'' :: r => codeFrom .code r
  | .longString, _ :: r => codeFrom .longString r
  | .shortString, '\'' :: '\'' :: '\'' :: r =>
    let (code, carry) := codeFrom .code r
    ('\'' :: '\'' :: '\'' :: code, carry)
  | .shortString, c :: r =>
    let (code, carry) := codeFrom .shortString r
    (c :: code, carry)
  | .quote q, c :: r =>
    let (code, carry) := codeFrom (if c = q then .code else .quote q) r
    (c :: code, carry)
  | .code, '/' :: '/' :: _ => ([], .code)
  | .code, '/' :: '*' :: r => codeFrom .comment r
  | .code, '\'' :: '\'' :: '\'' :: r =>
    if closesLong r then
      let (code, carry) := codeFrom .shortString r
      ('\'' :: '\'' :: '\'' :: code, carry)
    else ([], .longString)
  | .code, c :: r =>
    let (code, carry) := codeFrom (if Text.isQuote c then .quote c else .code) r
    (c :: code, carry)
  | mode, [] => ([], mode.carry)

/-- The code of each line, and what the last one leaves open. -/
def codeLines : Carry → List (List Char) → List (List Char) × Carry
  | carry, [] => ([], carry)
  | carry, line :: rest =>
    let (code, carry) := codeFrom carry.mode line
    let (codes, carry) := codeLines carry rest
    (code :: codes, carry)

end SeedData.Dbml
