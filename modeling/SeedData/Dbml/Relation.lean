/-
References as schema text writes them: `a.x > b.y` makes the left column the
child, `a.x < b.y` the right one, `a.x - b.y` again the left, and `a.x <> b.y`
neither. Beside a column only the mark and the other endpoint are written.
-/
import SeedData.Dbml.Token

namespace SeedData.Dbml

open Text

/-- A column as a reference spells it: its table, which may be an alias, and its
name. -/
structure Endpoint where
  table : String
  column : String
  deriving DecidableEq, Repr, Inhabited

/-- A reference as it is spelled. -/
structure Link where
  child : Endpoint
  parent : Endpoint
  deriving DecidableEq, Repr, Inhabited

/-- Which side of the mark is the child. -/
inductive Mark where
  | leftIsChild
  | rightIsChild
  | noChild
  deriving DecidableEq, Repr

/-- The mark that a text starts with, and the rest. -/
def takeMark? : List Char → Option (Mark × List Char)
  | '<' :: '>' :: r => some (.noChild, r)
  | '>' :: r => some (.leftIsChild, r)
  | '<' :: r => some (.rightIsChild, r)
  | '-' :: r => some (.leftIsChild, r)
  | _ => none

/-- Round brackets enclose as quotes do, to the first that closes. -/
def endpointCloser (c : Char) : Option Char :=
  if c == '(' then some ')' else quoteCloser c

/-- What may stand bare in an endpoint: neither blanks, marks nor square
brackets. -/
def isEndpointChar (c : Char) : Bool :=
  !isBlank c && c != '<' && c != '>' && c != '-' && c != '[' && c != ']'

/-- The endpoint that a text starts with, and the rest; empty if there is none. -/
def takeEndpoint (s : List Char) : List Char × List Char :=
  takeAtoms endpointCloser isEndpointChar none s

/-- Whether a text is nothing but settings in square brackets, or blank. -/
def isSettingsTail (s : List Char) : Bool :=
  match trim s with
  | [] => true
  | c :: r => c == '[' && r.getLast? == some ']'

/-- The two endpoints of a relation and the mark between them, as written. -/
def relation? (text : List Char) : Option (List Char × Mark × List Char) := do
  let (left, r) := takeEndpoint (trimLeft text)
  if left.isEmpty then none
  let (mark, r) ← takeMark? (trimLeft r)
  let (right, r) := takeEndpoint (trimLeft r)
  if right.isEmpty then none
  if isSettingsTail r then some (left, mark, right) else none

/-- The mark and the other endpoint of a reference beside a column, as written. -/
def inlineRelation? (text : List Char) : Option (Mark × List Char) := do
  let (mark, r) ← takeMark? (trimLeft text)
  let (target, r) := takeEndpoint (trimLeft r)
  if target.isEmpty then none
  if (trimLeft r).isEmpty then some (mark, target) else none

/-- The column that an endpoint names: its last dotted part, the table being the
parts before it. A list of columns in round brackets is not one. -/
def endpoint? (text : List Char) : Option Endpoint :=
  let parts := (splitOutside (· == '.') none (trim text)).map unquote
  match parts.reverse with
  | column :: second :: others =>
    let table := join ['.'] (second :: others).reverse
    if column.isEmpty || column.head? == some '(' || table.isEmpty then none
    else some ⟨String.ofList table, String.ofList column⟩
  | _ => none

/-- The reference between two columns with a mark between them. -/
def link? (left : Endpoint) (mark : Mark) (right : Endpoint) : Option Link :=
  match mark with
  | .leftIsChild => some ⟨left, right⟩
  | .rightIsChild => some ⟨right, left⟩
  | .noChild => none

end SeedData.Dbml
