/-
Keys: values of a type that differ from row to row as long as the type has values
left. A key depends on the row alone, never on chance. Rows are counted from zero
in 64-bit words, and the ordinal of a row is one more.

Keys are made everywhere (`ColumnType.key`), so that the remainder by zero and a label past
the last are something, too. `ColumnType.key?` has no key where a step of it is not defined.
-/
import SeedData.Column.Type
import SeedData.Column.Value
import SeedData.Random.Uuid

namespace SeedData

/-- The text key of an ordinal: the column's name and the ordinal in five digits or
more. Where that is too long, the ordinal alone fills the length, starting over
when it has taken every value but zero. -/
def keyText (column : String) (ordinal : UInt64) (maxLength : Option Nat) : String :=
  let long := column ++ "_" ++ padded 5 ordinal.toNat
  match maxLength with
  | none => long
  | some n =>
    if long.length ≤ n then long
    else if n = 0 then ""
    else if n < 20 then
      let limit := UInt64.ofNat (Decimal.pow10 n)
      padded n ((ordinal - 1) % (limit - 1) + 1).toNat
    else padded n ordinal.toNat

/-- The most digits that a number is written with where zeros are put in front of it. -/
def widestNumber : Nat := 65535

/-- Whether the key of a row can be written. A text key that is the ordinal alone takes as many
digits as the text may have characters. -/
def ColumnType.canWriteKey (t : ColumnType) (column : String) (row : UInt64) : Bool :=
  match t.family, t.maxLength with
  | .text, some n =>
    n ≤ widestNumber || (column ++ "_" ++ padded 5 (row + 1).toNat).length ≤ n
  | _, _ => true

/-- The key of a row in a column of the type. -/
def ColumnType.key (t : ColumnType) (column : String) (row : UInt64) (base : Date) : Value :=
  let ordinal := row + 1
  let date := base.addDays row.toInt64.toInt
  match t.family with
  | .integer => .int ordinal.toInt64
  | .decimal => .int ordinal.toInt64
  | .uuid => .uuid (Uuid.text ordinal.toNat)
  | .date => .date date
  | .timestamp => .timestamp date ⟨12, 0, 0⟩
  | .time => .time (TimeOfDay.ofSeconds (row.toNat % secondsPerDay))
  | .boolean => .bool (row.toNat % 2 == 0)
  | .json => .text (Json.obj [("id", .int ordinal.toNat)]).compact
  | .enumerated labels => .text (labels.getD (row.toNat % labels.length) "")
  | .text => .text (keyText column ordinal t.maxLength)

/-! ## Keys with each step checked -/

/-- The remainder, unless the divisor is zero. -/
def remainder? (m n : Nat) : Option Nat := if n = 0 then none else some (m % n)

/-- The number with zeros in front, unless it gets too wide. -/
def padded? (width n : Nat) : Option String :=
  if width ≤ widestNumber then some (padded width n) else none

/-- The text key of an ordinal, if each step of it is defined. -/
def keyText? (column : String) (ordinal : UInt64) (maxLength : Option Nat) : Option String := do
  let long ← (padded? 5 ordinal.toNat).map (column ++ "_" ++ ·)
  match maxLength with
  | none => return long
  | some n =>
    if long.length ≤ n then return long
    else if n = 0 then return ""
    else if n < 20 then
      let limit := UInt64.ofNat (Decimal.pow10 n)
      let turn ← remainder? (ordinal - 1).toNat (limit - 1).toNat
      padded? n (UInt64.ofNat turn + 1).toNat
    else padded? n ordinal.toNat

/-- The key of a row in a column of the type, if each step of it is defined. -/
def ColumnType.key? (t : ColumnType) (column : String) (row : UInt64) (base : Date) : Option Value :=
  match t.family with
  | .time => (remainder? row.toNat secondsPerDay).map fun n => .time (TimeOfDay.ofSeconds n)
  | .boolean => (remainder? row.toNat 2).map fun n => .bool (n == 0)
  | .enumerated labels => do return .text (← labels[← remainder? row.toNat labels.length]?)
  | .text => (keyText? column (row + 1) t.maxLength).map .text
  | _ => some (t.key column row base)

end SeedData
