/-
Schemas: tables with their columns, enumerated types, and references from one
column to another. A catalog keeps tables in the order in which they were first
defined; a later definition of a table takes the place of the earlier.
-/
import SeedData.Schema.Setting

namespace SeedData

/-- Whether two texts are the same up to the case of ASCII letters. -/
def sameLetters (a b : String) : Bool := a.toList.map Char.toLower == b.toList.map Char.toLower

/-- A column of a table. -/
structure Column where
  name : String
  /-- The type as it is written. -/
  dataType : String
  settings : Settings
  deriving DecidableEq, Repr, Inhabited

/-- Whether the column identifies the rows of its table: it is a primary key, or
named `id` in any case. -/
def Column.isKeyLike (c : Column) : Bool := c.settings.isPrimaryKey || sameLetters c.name "id"

/-- A table. -/
structure Table where
  name : String
  columns : List Column
  deriving DecidableEq, Repr, Inhabited

namespace Table

def column? (t : Table) (name : String) : Option Column := t.columns.find? (·.name = name)

/-- The table with a column at the end, unless it has one of that name. -/
def pushColumn? (t : Table) (c : Column) : Option Table :=
  if (t.column? c.name).isSome then none else some { t with columns := t.columns ++ [c] }

end Table

/-- An enumerated type: its name and the labels that its values can be. -/
structure EnumType where
  name : String
  labels : List String
  deriving DecidableEq, Repr, Inhabited

/-- A reference from a column, the source, to the column of another row that it
takes its values from, the target. -/
structure Reference where
  sourceTable : String
  sourceColumn : String
  targetTable : String
  targetColumn : String
  deriving DecidableEq, Repr, Inhabited

def Reference.isSelf (r : Reference) : Bool := r.sourceTable = r.targetTable

/-- A schema: its tables and its enumerated types. -/
structure Catalog where
  tables : List Table
  enums : List EnumType
  deriving DecidableEq, Repr, Inhabited

namespace Catalog

def empty : Catalog := ⟨[], []⟩

def table? (c : Catalog) (name : String) : Option Table := c.tables.find? (·.name = name)

/-- The first column of the name in the first table of the name. -/
def column? (c : Catalog) (table column : String) : Option Column := do
  (← c.table? table).column? column

/-- The first enumerated type of the name, in any case. -/
def enum? (c : Catalog) (name : String) : Option EnumType := c.enums.find? (sameLetters ·.name name)

/-- The tables with one in the place of the first that has its name, or at the
end if there is none. -/
def upsertInto (t : Table) : List Table → List Table
  | [] => [t]
  | u :: r => if u.name = t.name then t :: r else u :: upsertInto t r

/-- The schema with a table in place of the one that has its name. -/
def upsert (c : Catalog) (t : Table) : Catalog := { c with tables := upsertInto t c.tables }

/-- The schema with an enumerated type at the end, and none of its name before. -/
def replaceEnum (c : Catalog) (e : EnumType) : Catalog :=
  { c with enums := c.enums.filter (·.name ≠ e.name) ++ [e] }

def tableNames (c : Catalog) : List String := c.tables.map (·.name)

end Catalog

/-- What schema text says: its tables and types, and its references in order. -/
structure Schema where
  catalog : Catalog
  references : List Reference
  deriving DecidableEq, Repr, Inhabited

end SeedData
