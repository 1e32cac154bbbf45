/-
Schemas as JSON. Every structure is a record of its fields; a setting is its kind
with its text beside it if it has one. The enumerated types of a schema without
any are left out.
-/
import SeedData.Json.Decode
import SeedData.Schema.Catalog

namespace SeedData

namespace Setting

/-- The kind of a setting, as a word. -/
def kind : Setting → String
  | primaryKey => "primary_key"
  | notNull => "not_null"
  | null => "null"
  | unique => "unique"
  | increment => "increment"
  | default _ => "default"
  | note _ => "note"
  | extension _ => "extension"

/-- The text of a setting that has one. -/
def text? : Setting → Option String
  | default value => some value
  | note text => some text
  | extension token => some token
  | _ => none

def toJson (s : Setting) : Json :=
  match s.text? with
  | some text => .obj [("kind", .str s.kind), ("value", .str text)]
  | none => .obj [("kind", .str s.kind)]

/-- A setting that stands for itself, beside which there is no value or `null`. -/
def bare? (s : Setting) : Option Json → Option Setting
  | none => some s
  | some .null => some s
  | some _ => none

/-- A setting made of the text beside it. -/
def withText? (f : String → Setting) (value : Option Json) : Option Setting := do
  return f (← (← value).str?)

/-- The setting of a kind and the value beside it. -/
def ofKind? (kind : String) (value : Option Json) : Option Setting :=
  match kind with
  | "primary_key" => bare? primaryKey value
  | "not_null" => bare? notNull value
  | "null" => bare? null value
  | "unique" => bare? unique value
  | "increment" => bare? increment value
  | "default" => withText? default value
  | "note" => withText? note value
  | "extension" => withText? extension value
  | _ => none

/-- The setting that a JSON value is. A list holds the kind and the value. -/
def ofJson? (v : Json) : Option Setting :=
  match v with
  | .obj members => do ofKind? (← (← Json.member? members "kind").str?) (Json.member? members "value")
  | .arr [kind, value] => do ofKind? (← kind.str?) (some value)
  | _ => none

end Setting

def Settings.toJson (s : Settings) : Json := .arr (s.toList.map Setting.toJson)

/-- The settings that a JSON list holds, as they stand there. -/
def Settings.ofJson? (v : Json) : Option Settings := do return ⟨← v.list? Setting.ofJson?⟩

def Column.toJson (c : Column) : Json :=
  .obj [("name", .str c.name), ("data_type", .str c.dataType), ("settings", c.settings.toJson)]

def Column.ofJson? (v : Json) : Option Column := do
  let [name, dataType, settings] ← v.fields? ["name", "data_type", "settings"] | none
  return ⟨← (← name).str?, ← (← dataType).str?, ← Settings.ofJson? (← settings)⟩

def Table.toJson (t : Table) : Json :=
  .obj [("name", .str t.name), ("columns", .arr (t.columns.map Column.toJson))]

def Table.ofJson? (v : Json) : Option Table := do
  let [name, columns] ← v.fields? ["name", "columns"] | none
  return ⟨← (← name).str?, ← (← columns).list? Column.ofJson?⟩

def EnumType.toJson (e : EnumType) : Json :=
  .obj [("name", .str e.name), ("labels", .arr (e.labels.map .str))]

/-- The enumerated type that a JSON value is. -/
def EnumType.ofJson? (v : Json) : Option EnumType := do
  let [name, labels] ← v.fields? ["name", "labels"] | none
  return ⟨← (← name).str?, ← (← labels).list? Json.str?⟩

def Catalog.toJson (c : Catalog) : Json :=
  .obj (("tables", .arr (c.tables.map Table.toJson))
    :: if c.enums.isEmpty then [] else [("enums", .arr (c.enums.map EnumType.toJson))])

def Catalog.ofJson? (v : Json) : Option Catalog := do
  let [tables, enums] ← v.fields? ["tables", "enums"] | none
  return ⟨← (← tables).list? Table.ofJson?, ← Json.orElse? [] (·.list? EnumType.ofJson?) enums⟩

def Reference.toJson (r : Reference) : Json :=
  .obj [("source_table", .str r.sourceTable), ("source_column", .str r.sourceColumn),
    ("target_table", .str r.targetTable), ("target_column", .str r.targetColumn)]

def Reference.ofJson? (v : Json) : Option Reference := do
  let [sourceTable, sourceColumn, targetTable, targetColumn] ←
    v.fields? ["source_table", "source_column", "target_table", "target_column"] | none
  return ⟨← (← sourceTable).str?, ← (← sourceColumn).str?, ← (← targetTable).str?,
    ← (← targetColumn).str?⟩

end SeedData
