/-
The types of columns. A schema writes a type as it likes: `ColumnType.resolve`
reads the base name and the parameters off what is written, and the family that
decides how values of the type look off the base name. A name that is no known
one stands for the enumerated type of that name, or for text.
-/
import SeedData.Calendar
import SeedData.Decimal
import SeedData.Schema.Catalog

namespace SeedData

/-- The families of types, by how their values look. -/
inductive Family where
  | integer
  | decimal
  | boolean
  | date
  | time
  | timestamp
  | uuid
  | json
  /-- One of the labels, of which there is at least one. -/
  | enumerated (labels : List String)
  | text
  deriving DecidableEq, Repr, Inhabited

namespace Family

/-- The base names of each family that has names of its own. -/
def names : List (Family × List String) := [
  (integer, ["int", "integer", "bigint", "smallint", "tinyint", "mediumint", "serial", "bigserial",
    "smallserial", "int2", "int4", "int8", "long"]),
  (decimal, ["decimal", "numeric", "float", "float4", "float8", "double", "double precision",
    "real", "money", "number"]),
  (boolean, ["bool", "boolean"]),
  (date, ["date"]),
  (time, ["time", "timetz", "time with time zone", "time without time zone"]),
  (timestamp, ["timestamp", "timestamptz", "datetime", "timestamp with time zone",
    "timestamp without time zone"]),
  (uuid, ["uuid"]),
  (json, ["json", "jsonb"])]

/-- The family that the base name is a name of. -/
def ofName? (base : String) : Option Family :=
  (names.find? fun (_, names) => names.contains base).map (·.1)

/-- The enumerated type of the name, if it has labels; otherwise text. -/
def ofEnum (catalog : Catalog) (base : String) : Family :=
  match catalog.enum? base with
  | some e => if e.labels.isEmpty then text else enumerated e.labels
  | none => text

/-- The family of a base name in a schema. -/
def ofBase (catalog : Catalog) (base : String) : Family := (ofName? base).getD (ofEnum catalog base)

end Family

/-- The type of a column. -/
structure ColumnType where
  /-- The name, in lower case and with single spaces. -/
  base : String
  family : Family
  /-- The most characters that a text may have. -/
  maxLength : Option Nat
  /-- The decimal places of a decimal number. -/
  scale : Option Nat
  deriving DecidableEq, Repr, Inhabited

namespace ColumnType

/-! ## Reading a type -/

/-- The number below `limit` that a text writes: decimal digits, after a plus sign
or not. -/
def size? (limit : Nat) (s : List Char) : Option Nat :=
  let digits := match s with
    | '+' :: r => r
    | s => s
  let n := digits.foldl (fun n c => 10 * n + (c.toNat - '0'.toNat)) 0
  if !digits.isEmpty && digits.all Char.isDigit && n < limit then some n else none

/-- The text without the array marks at its end. -/
def dropArrayMarks (s : List Char) : List Char := (drop s.reverse).reverse
where
  /-- The text, read backwards, without the marks it starts with. -/
  drop : List Char → List Char
    | ']' :: '[' :: r => drop r
    | s => s

/-- The base name and the parameters of a type in lower case. The parameters stand
between the first opening parenthesis and the next closing one, or the end; those
that are blank do not count. -/
def parts (written : List Char) : List Char × List (List Char) :=
  let (base, rest) := written.span (· ≠ '(')
  let params := (rest.drop 1).takeWhile (· ≠ ')')
  (Text.collapse (dropArrayMarks (Text.trim base)),
    ((Text.splitOn (· == ',') params).map Text.trim).filter (· ≠ []))

def resolve (catalog : Catalog) (written : String) : ColumnType :=
  let (base, params) := parts (Text.lowercase (Text.trim written.toList))
  let base := String.ofList base
  let family := Family.ofBase catalog base
  { base := base
    family := family
    maxLength := if family = .text then params[0]?.bind (size? 0x10000000000000000) else none
    scale := if family = .decimal then params[1]?.bind (size? 0x100000000) else none }

/-! ## Capacity -/

/-- How many keys there are of the type before they repeat; none if they never
do. -/
def capacity? (t : ColumnType) : Option Nat :=
  match t.family with
  | .boolean => some 2
  | .enumerated labels => some labels.length
  | .time => some secondsPerDay
  | .text => t.maxLength.bind fun n => if n < 20 then some (Decimal.pow10 n - 1) else none
  | _ => none

end ColumnType
end SeedData
