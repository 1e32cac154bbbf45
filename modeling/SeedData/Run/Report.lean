/-
The report of a run: what was asked for, what each table got, which foreign keys
were given up, and the issues. `Report.record` keeps the count of issues by code
in step with their list.
-/
import SeedData.Order.Format
import SeedData.Run.Options

namespace SeedData

/-- Something that a run could not do as asked. -/
structure Issue where
  level : String
  code : String
  message : String
  table : Option String
  column : Option String
  deriving DecidableEq, Repr, Inhabited

/-- What a table got. -/
structure TableReport where
  table : String
  rowsRequested : UInt64
  rowsGenerated : UInt64
  columns : UInt64
  deriving DecidableEq, Repr, Inhabited

/-- The report of a run. -/
structure Report where
  seed : UInt64
  rowsPerTable : UInt64
  tables : List TableReport
  removed : List Edge
  /-- How many issues there are of each code. -/
  issuesByCode : SortedMap String UInt64
  issues : List Issue
  deriving DecidableEq, Inhabited

def Issue.warning (code message : String) (table column : Option String) : Issue :=
  ⟨"warning", code, message, table, column⟩

namespace Report

/-- The report of a run that has not begun. -/
def ofOptions (o : Options) : Report := ⟨o.seed, o.rows, [], [], SortedMap.empty, []⟩

def record (r : Report) (issue : Issue) : Report :=
  { r with
    issuesByCode := r.issuesByCode.insert issue.code
      ((r.issuesByCode.get? issue.code).getD 0 + 1)
    issues := r.issues ++ [issue] }

def addTable (r : Report) (t : TableReport) : Report := { r with tables := r.tables ++ [t] }

def issuesFor (r : Report) (code : String) : List Issue := r.issues.filter (·.code = code)

/-- What the first table of the name got. -/
def table? (r : Report) (name : String) : Option TableReport := r.tables.find? (·.table = name)

end Report

/-! ## JSON -/

/-- A member for a text that is there. -/
def Json.memberOf? (name : String) : Option String → List (String × Json)
  | some s => [(name, .str s)]
  | none => []

/-- The issue as JSON, without what it does not have. -/
def Issue.toJson (i : Issue) : Json :=
  .obj ([("level", .str i.level), ("code", .str i.code), ("message", .str i.message)]
    ++ Json.memberOf? "table" i.table ++ Json.memberOf? "column" i.column)

def Issue.ofJson? (v : Json) : Option Issue := do
  let [level, code, message, table, column] ←
    v.fields? ["level", "code", "message", "table", "column"] | none
  return ⟨← (← level).str?, ← (← code).str?, ← (← message).str?,
    ← Json.optional? Json.str? table, ← Json.optional? Json.str? column⟩

def TableReport.toJson (t : TableReport) : Json :=
  .obj [("table", .str t.table), ("rows_requested", .int t.rowsRequested.toNat),
    ("rows_generated", .int t.rowsGenerated.toNat), ("columns", .int t.columns.toNat)]

/-- What a table got, read from a JSON value. -/
def TableReport.ofJson? (v : Json) : Option TableReport := do
  let [table, rowsRequested, rowsGenerated, columns] ←
    v.fields? ["table", "rows_requested", "rows_generated", "columns"] | none
  return ⟨← (← table).str?, ← (← rowsRequested).word?, ← (← rowsGenerated).word?,
    ← (← columns).word?⟩

namespace Report

def countsToJson (counts : SortedMap String UInt64) : Json :=
  .obj (counts.entries.map fun (code, n) => (code, .int n.toNat))

/-- The counts of issues that a JSON object gives. -/
def countsOfJson? (v : Json) : Option (SortedMap String UInt64) := do
  let members ← v.obj?
  return SortedMap.ofList (← members.mapM fun (code, n) => return (code, ← n.word?))

def toJson (r : Report) : Json :=
  .obj [("seed", .int r.seed.toNat), ("rows_per_table", .int r.rowsPerTable.toNat),
    ("tables", .arr (r.tables.map TableReport.toJson)),
    ("removed_edges", .arr (r.removed.map Edge.toJson)),
    ("warnings_by_code", countsToJson r.issuesByCode),
    ("warnings", .arr (r.issues.map Issue.toJson))]

def ofJson? (v : Json) : Option Report := do
  let [seed, rowsPerTable, tables, removed, counts, issues] ← v.fields?
    ["seed", "rows_per_table", "tables", "removed_edges", "warnings_by_code", "warnings"] | none
  return ⟨← (← seed).word?, ← (← rowsPerTable).word?, ← (← tables).list? TableReport.ofJson?,
    ← (← removed).list? Edge.ofJson?, ← countsOfJson? (← counts), ← (← issues).list? Issue.ofJson?⟩

end Report
end SeedData
