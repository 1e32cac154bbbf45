/-
Filling the rows of a table. A row is filled in two passes: first the columns that
refer to rows, of other tables or of this, then all the others. The first choice
of a row of another table holds for the whole row, so that attributes come from
the row that the foreign key leads to. A column that falls short of its source is
reported by the first row.
-/
import SeedData.Column.Key
import SeedData.Column.Synthesis
import SeedData.Run.Journal
import SeedData.Run.Plan

namespace SeedData

/-- The rows of other tables that a row has chosen. -/
abbrev Choices := SortedMap String Nat

/-- The choices with one more, unless a row of the table is chosen already. -/
def Choices.note (choices : Choices) (table : String) (row : Nat) : Choices :=
  if choices.contains table then choices else choices.insert table row

variable {m : Type → Type} [Monad m] [Filling m]

/-- A value of an earlier row, at the place of a column. The first row has none
before it; any other goes without by chance. -/
def earlierValue (nullRate : Float) (rows : Array (List Value)) (column : Nat) : m Value := do
  if rows.isEmpty then return .null
  else if ← Draw.chance nullRate then return .null
  else
    let row := rows.getD (← Draw.below rows.size) []
    rely (column < row.length)
    return row.getD column .null

/-- The first pass over the column at a place: its value, if it refers to a row. -/
def Feed.link (nullRate : Float) (rows : Array (List Value)) (place : Nat) (choices : Choices) :
    Feed → m (Value × Choices)
  | empty issue => do
    recordOnce place issue
    return (.null, choices)
  | sample table pool => do
    let row ← Draw.below pool.size
    rely (row < pool.size)
    return (pool.getD row .null, choices.note table row)
  | earlier column => do return (← earlierValue nullRate rows column, choices)
  | _ => return (.null, choices)

/-- The first pass over the columns of a row from a place on. -/
def linkRow (nullRate : Float) (rows : Array (List Value)) :
    Nat → List Feed → Choices → m (List Value × Choices)
  | _, [], choices => return ([], choices)
  | place, feed :: rest, choices => do
    let (value, choices) ← feed.link nullRate rows place choices
    let (values, choices) ← linkRow nullRate rows (place + 1) rest choices
    return (value :: values, choices)

/-- The text for a random value, if a hint gives one. -/
def hintedText : Option Hint → m (Option String)
  | some hint => do return some (← draw hint.write)
  | none => return none

/-- The second pass over the column at a place, with what the first has left there. -/
def Feed.fill (base : Date) (row : UInt64) (place : Nat) (linked : Value) (choices : Choices) :
    Feed → m (Value × Choices)
  | shared table pool => do
    match choices.get? table with
    | some chosen => return (pool.getD chosen .null, choices)
    | none =>
      let chosen ← Draw.below pool.size
      return (pool.getD chosen .null, choices.note table chosen)
  | key column type => do
    rely (type.key? column row base).isSome
    return (type.key column row base, choices)
  | random type hint issue => do
    issue.forM (recordOnce place)
    let given ← hintedText hint
    return (← type.random given base, choices)
  | _ => return (linked, choices)

/-- The second pass over the columns of a row from a place on. -/
def fillRow (base : Date) (row : UInt64) :
    Nat → List Feed → List Value → Choices → m (List Value)
  | _, [], _, _ => return []
  | place, feed :: rest, linked, choices => do
    let (value, choices) ← feed.fill base row place (linked.headD .null) choices
    return value :: (← fillRow base row (place + 1) rest linked.tail choices)

/-- The row that comes after the given ones. -/
def nextRow (options : Options) (feeds : List Feed) (rows : Array (List Value)) : m (List Value) := do
  let (linked, choices) ← linkRow options.nullRate rows 0 feeds SortedMap.empty
  fillRow options.baseDate (UInt64.ofNat rows.size) 0 feeds linked choices

/-- The given rows and as many more. -/
def fillRows (options : Options) (feeds : List Feed) :
    Nat → Array (List Value) → m (Array (List Value))
  | 0, rows => return rows
  | count + 1, rows => do fillRows options feeds count (rows.push (← nextRow options feeds rows))

end SeedData
