/-
JSON values and their text. Objects keep their members in the order given.
`compact` writes a value on one line without blanks; `pretty` writes one member
or element a line, indented by two spaces.
-/
import SeedData.Decimal

namespace SeedData

/-- A JSON value. Numbers written with a fraction or an exponent are `float`s. -/
inductive Json where
  | null
  | bool (b : Bool)
  | int (n : Int)
  | float (x : Float)
  | str (s : String)
  | arr (elements : List Json)
  | obj (members : List (String × Json))

namespace Json

/-- A character of a JSON string, escaped where the format asks for it. -/
def escapeChar (c : Char) : List Char :=
  if c = '"' then ['\\', '"']
  else if c = '\\' then ['\\', '\\']
  else if c = '\n' then ['\\', 'n']
  else if c = '\r' then ['\\', 'r']
  else if c = '\t' then ['\\', 't']
  else if c.toNat = 0x08 then ['\\', 'b']
  else if c.toNat = 0x0C then ['\\', 'f']
  else if c.toNat < 0x20 then
    let digits := Nat.toDigits 16 c.toNat
    '\\' :: 'u' :: (List.replicate (4 - digits.length) '0' ++ digits)
  else [c]

def quote (s : String) : String := String.ofList ('"' :: s.toList.flatMap escapeChar ++ ['"'])

/-- A number with a fraction, also if it is whole. What is not finite has no JSON
number and is written `null`. -/
def floatText (x : Float) : String :=
  let text := Decimal.text x
  if !Decimal.isFinite x then "null"
  else if text.toList.contains '.' then text
  else text ++ ".0"

/-- The lines between two brackets: each piece on a line of its own, the closing
bracket at the indentation of the line that opened. -/
def block (opening closing : String) (indent : Nat) (pieces : List String) : String :=
  let newline := "\n" ++ String.ofList (List.replicate indent ' ')
  if pieces.isEmpty then opening ++ closing
  else opening ++ newline ++ "  " ++ (("," ++ newline ++ "  ").intercalate pieces) ++ newline ++ closing

mutual

/-- The value on one line, without blanks. -/
def compact : Json → String
  | null => "null"
  | bool b => if b then "true" else "false"
  | int n => toString n
  | float x => floatText x
  | str s => quote s
  | arr elements => "[" ++ ",".intercalate (compactElements elements) ++ "]"
  | obj members => "\x7b" ++ ",".intercalate (compactMembers members) ++ "\x7d"

/-- The elements of an array, each on one line. -/
def compactElements : List Json → List String
  | [] => []
  | v :: r => compact v :: compactElements r

/-- The members of an object, each on one line. -/
def compactMembers : List (String × Json) → List String
  | [] => []
  | (k, v) :: r => (quote k ++ ":" ++ compact v) :: compactMembers r

end

mutual

/-- The value with one element or member a line. -/
def prettyAt (indent : Nat) : Json → String
  | arr elements => block "[" "]" indent (prettyElements (indent + 2) elements)
  | obj members => block "\x7b" "\x7d" indent (prettyMembers (indent + 2) members)
  | null => compact null
  | bool b => compact (bool b)
  | int n => compact (int n)
  | float x => compact (float x)
  | str s => compact (str s)

/-- The elements of an array that is written over several lines. -/
def prettyElements (indent : Nat) : List Json → List String
  | [] => []
  | v :: r => prettyAt indent v :: prettyElements indent r

/-- The members of an object that is written over several lines. -/
def prettyMembers (indent : Nat) : List (String × Json) → List String
  | [] => []
  | (k, v) :: r => (quote k ++ ": " ++ prettyAt indent v) :: prettyMembers indent r

end

/-- The value with one element or member a line. -/
def pretty (v : Json) : String := prettyAt 0 v

/-- The text, or `null` for none. -/
def ofText? : Option String → Json
  | some s => str s
  | none => null

end Json
end SeedData
