/-
Filled tables. A row gives its values in the order of the columns; it may have
fewer or more of them than there are columns.
-/
import SeedData.Column.Value
import SeedData.SortedMap

namespace SeedData

/-- A table with its rows. -/
structure DataTable where
  name : String
  columns : List String
  rows : Array (List Value)
  deriving Inhabited

namespace DataTable

/-- The place of the first column of the name. -/
def columnIndex? (t : DataTable) (column : String) : Option Nat := t.columns.idxOf? column

/-- The value of a row in a column. -/
def value? (t : DataTable) (row : Nat) (column : String) : Option Value := do
  let index ← t.columnIndex? column
  (← t.rows[row]?)[index]?

/-- The values of a column, of the rows that have one. -/
def columnValues? (t : DataTable) (column : String) : Option (List Value) := do
  let index ← t.columnIndex? column
  return t.rows.toList.filterMap (·[index]?)

/-- The values of a row by column; of columns with one name the last counts. -/
def row? (t : DataTable) (row : Nat) : Option (SortedMap String Value) := do
  return SortedMap.ofList (t.columns.zip (← t.rows[row]?))

/-- Whether the table has no date outside the supported years. -/
def isSupported (t : DataTable) : Bool := t.rows.all fun row => row.all Value.isSupported

def toJson (t : DataTable) : Json :=
  .obj [("name", .str t.name), ("columns", .arr (t.columns.map .str)),
    ("rows", .arr (t.rows.toList.map fun row => .arr (row.map Value.toJson)))]

end DataTable

/-- Filled tables, in the order of filling. -/
structure Dataset where
  tables : List DataTable
  deriving Inhabited

namespace Dataset

def empty : Dataset := ⟨[]⟩

def table? (d : Dataset) (name : String) : Option DataTable := d.tables.find? (·.name = name)

def tableNames (d : Dataset) : List String := d.tables.map (·.name)

/-- The dataset with one more table at its end. -/
def push (d : Dataset) (t : DataTable) : Dataset := ⟨d.tables ++ [t]⟩

def toJson (d : Dataset) : Json := .obj [("tables", .arr (d.tables.map DataTable.toJson))]

end Dataset
end SeedData
