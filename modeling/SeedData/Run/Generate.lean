/-
Runs: the tables of an order are filled one after another from one keystream. The
columns that later tables may refer to are kept as pools, and what could not be
done as asked goes into the report.
-/
import SeedData.Run.Row

namespace SeedData

/-! ## Faults -/

/-- Why a run gives no data. -/
inductive Fault where
  /-- The schema has no table. -/
  | noTables
  /-- The share of empty references is not a number from zero to one. -/
  | invalidNullRate (rate : Float)
  /-- The order names a table that the schema does not have. -/
  | unknownTable (name : String)
  /-- A date left the supported years. -/
  | outsideCalendar
  /-- A key has more digits than a number is written with. -/
  | keyTooWide
  deriving Repr

def Fault.message : Fault → String
  | noTables => "no tables found in schema"
  | invalidNullRate rate =>
    "invalid options: self_ref_null_rate must be within [0, 1], got " ++ Decimal.text rate
  | unknownTable name => "table '" ++ name ++ "' is not in the schema catalog"
  | outsideCalendar => "a date leaves the supported years"
  | keyTooWide => "a key has more digits than a number is written with"

/-- Whether the fault breaks a run off in the middle of a table. -/
def Fault.breaksOff : Fault → Bool
  | outsideCalendar | keyTooWide => true
  | _ => false

/-! ## Jobs and runs -/

/-- What a run works on. -/
structure Job where
  catalog : Catalog
  keys : ForeignKeys
  /-- The references that are not foreign keys. -/
  attributes : List Reference
  order : TableOrder
  options : Options

/-- What a run gives. -/
structure Run where
  dataset : Dataset
  pools : Pools
  report : Report
  deriving Inhabited

/-- The run with one more table, when the report has come to this. -/
def Run.add (run : Run) (options : Options) (retained : SortedSet ColumnRef) (table : DataTable)
    (report : Report) : Run where
  dataset := run.dataset.push table
  pools := run.pools.ingest table retained
  report := report.addTable
    ⟨table.name, options.rows, UInt64.ofNat table.rows.size, UInt64.ofNat table.columns.length⟩

namespace Job

def start (job : Job) : Run :=
  ⟨Dataset.empty, Pools.empty, { Report.ofOptions job.options with removed := job.order.removed }⟩

/-- Where the columns of a table get their values. -/
def plan (job : Job) (table : Table) : TablePlan where
  name := table.name
  columns := table.columns.map fun c =>
    ⟨c.name,
      sourceOf job.catalog job.keys (attributeTargets job.keys job.attributes) job.order table c⟩

/-- The columns whose values are kept. -/
def retained (job : Job) : SortedSet ColumnRef :=
  retainedColumns job.catalog job.keys job.attributes

/-- A table filled when the pools are these. Keys that run out are recorded before the rows. -/
def fillTable {m : Type → Type} [Monad m] [Filling m] (job : Job) (pools : Pools) (plan : TablePlan) :
    m DataTable := do
  (plan.issuesOf (Source.exhaustion? job.options.rows)).forM record
  let rows ← fillRows job.options (plan.feeds pools) job.options.rows.toNat #[]
  return ⟨plan.name, plan.columns.map (·.name), rows⟩

/-- The run after the tables of these names, from a keystream on. -/
def fillTables (job : Job) : List String → Run → Keystream → Except Fault Run × List Notice
  | [], run, _ => (.ok run, [])
  | name :: rest, run, keystream =>
    match job.catalog.table? name with
    | none => (.error (.unknownTable name), [])
    | some table =>
      let plan := job.plan table
      let begun := .generatingTable table.name job.options.rows
      if plan.canWriteKeys job.options.rows then
        let filling : StateT Journal Draw DataTable := job.fillTable run.pools plan
        let ((filled, journal), keystream) := (filling.run (.ofReport run.report)).run keystream
        if filled.isSupported then
          let (result, after) :=
            job.fillTables rest (run.add job.options job.retained filled journal.report) keystream
          (result, begun :: journal.notices ++ .tableGenerated table.name filled.rows.size :: after)
        else (.error .outsideCalendar, begun :: journal.notices)
      else (.error .keyTooWide, [begun])

/-- The run of a job. Options that make no sense are refused before anything
else. -/
def generate (job : Job) : Except Fault Run × List Notice :=
  if job.options.isValid then
    let before := attributeNotices job.keys job.attributes
      ++ [.generationStarted job.order.tables.length job.options.rows job.options.seed]
    let (result, notices) :=
      job.fillTables job.order.tables job.start (Keystream.ofSeed job.options.seed)
    let after := match result with
      | .ok run => [.generationCompleted run.dataset.tables.length run.report.issues.length]
      | .error _ => []
    (result, before ++ notices ++ after)
  else (.error (.invalidNullRate job.options.nullRate), [])

end Job
end SeedData
