/-
Random values of a type. What is drawn depends on the family; a text is one given
for it, or filler. Dates go up to a year past a base date.
-/
import SeedData.Column.Type
import SeedData.Column.Value
import SeedData.Prose.Hint
import SeedData.Random.Uuid

namespace SeedData

variable {m : Type → Type} [Monad m] [Drawing m]

def TimeOfDay.random : m TimeOfDay := do return ofSeconds (← Draw.below secondsPerDay)

/-- A random date from the base date on, 365 days later at the latest. -/
def Date.random (base : Date) : m Date := do return base.addDays (← Draw.belowLong 366)

/-- A random number from one to a hundred thousand. -/
def randomNumber : m Nat := do return 1 + (← Draw.belowLong 100000)

/-- The text without what goes beyond so many characters. -/
def truncate (maxLength : Option Nat) (s : String) : String :=
  match maxLength with
  | some n => String.ofList (s.toList.take n)
  | none => s

/-- A random value of the type, of the given text if it is one. -/
def ColumnType.random (t : ColumnType) (given : Option String) (base : Date) : m Value :=
  match t.family with
  | .integer => do return .int (Int64.ofNat (← randomNumber))
  | .decimal => do
    let x ← Draw.between 0.0 10000.0
    return .float (Decimal.roundTo x (t.scale.getD 2))
  | .boolean => do return .bool (← Draw.chance 0.5)
  | .date => do return .date (← base.random)
  | .time => do return .time (← TimeOfDay.random)
  | .timestamp => do
    let date ← base.random
    return .timestamp date (← TimeOfDay.random)
  | .uuid => do return .uuid (← draw Uuid.random)
  | .json => do
    let word ← draw Prose.words.choose
    return .text (Json.obj [(word, .int (← randomNumber))]).compact
  | .enumerated labels => do
    let i ← Draw.below labels.length
    rely (i < labels.length)
    return .text (labels.getD i "")
  | .text => do
    let s ← match given with
      | some s => pure s
      | none => draw Prose.filler
    return .text (truncate t.maxLength s)

end SeedData
