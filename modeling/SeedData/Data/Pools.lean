/-
Value pools: the values of columns that other tables may refer to, kept when their
table has been filled. All pools of a table are aligned: what they hold at one
index belongs to one row.
-/
import SeedData.Data.Dataset
import SeedData.Schema.ColumnRef

namespace SeedData

/-- The values of columns that are kept, and the number of rows of each table. -/
structure Pools where
  columns : SortedMap ColumnRef (Array Value)
  rowCounts : SortedMap String Nat

namespace Pools

def empty : Pools := ⟨SortedMap.empty, SortedMap.empty⟩

instance : Inhabited Pools := ⟨empty⟩

/-- The values at a place of each row. -/
def column (rows : Array (List Value)) (index : Nat) : Array Value :=
  rows.map fun row => row.getD index .null

/-- Keeps those columns of a table that are to be retained, over pools that they
have already; `index` is the place of the first of the columns. -/
def keep (table : String) (rows : Array (List Value)) (retained : SortedSet ColumnRef)
    (pools : SortedMap ColumnRef (Array Value)) (index : Nat) :
    List String → SortedMap ColumnRef (Array Value)
  | [] => pools
  | name :: rest =>
    let pools :=
      if retained.contains ⟨table, name⟩ then pools.insert ⟨table, name⟩ (column rows index) else pools
    keep table rows retained pools (index + 1) rest

/-- The pools with the retained columns of a filled table. -/
def ingest (p : Pools) (t : DataTable) (retained : SortedSet ColumnRef) : Pools :=
  ⟨keep t.name t.rows retained p.columns 0 t.columns, p.rowCounts.insert t.name t.rows.size⟩

def values? (p : Pools) (column : ColumnRef) : Option (Array Value) := p.columns.get? column

/-- The value kept of a column for one row. -/
def valueAt? (p : Pools) (column : ColumnRef) (row : Nat) : Option Value := do
  (← p.values? column)[row]?

/-- The number of rows of a table that has been filled. -/
def rowCount? (p : Pools) (table : String) : Option Nat := p.rowCounts.get? table

end Pools

/-- The columns whose values must be kept: those that identify rows, and those
that a foreign key or a reference to an attribute leads to. -/
def retainedColumns (catalog : Catalog) (keys : ForeignKeys) (attributes : List Reference) :
    SortedSet ColumnRef :=
  let identifying := catalog.tables.flatMap fun t =>
    (t.columns.filter Column.isKeyLike).map fun c => ⟨t.name, c.name⟩
  SortedSet.ofList (identifying ++ keys.entries.map (·.2) ++ attributes.map Reference.target)

end SeedData
