/-
Projects on disk: a directory named for the project, with a file for each table
below it and a report beside them. Nothing is written before the data are
complete.
-/
import SeedData.Command.Arguments
import SeedData.Data.Csv
import SeedData.Disk.Access
import SeedData.Run.FromFile

namespace SeedData

/-- What tells one run from another: an identifier, and the time. -/
structure Stamp where
  runId : String
  time : String
  deriving DecidableEq, Repr

/-- The directories of a project. -/
structure ProjectPaths where
  root : String
  deriving DecidableEq, Repr

namespace ProjectPaths

/-- The directories of the project of a name. -/
def ofName (out name : String) : ProjectPaths := ⟨Path.join out ("dbt_" ++ name)⟩

def seeds (p : ProjectPaths) : String := Path.join (Path.join p.root "seeds") "raw"

def report : String := "generation_report.json"

def tableFile (table : String) : String := table ++ ".csv"

end ProjectPaths

/-- Why the command line gives no project. -/
inductive Complaint where
  | unnamed (file : String)
  | source (fault : FileFault)
  | projectExists (root : String)
  | directory (fault : DiskFault)
  | table (fault : DiskFault)

def Complaint.message : Complaint → String
  | unnamed file => "invalid arguments: cannot derive a project name from " ++ file
  | source (.missing path) => "File not found: " ++ path
  | source (.run .noTables) => "No tables found in schema"
  | source fault => "generation error: " ++ fault.message
  | projectExists root =>
    "Project directory " ++ root ++ " already exists (use --force to overwrite)"
  | directory fault => "io error: " ++ fault.message
  | table fault => "generation error: csv error: " ++ fault.message

/-- Whether the complaint is about a run that broke off. -/
def Complaint.breaksOff : Complaint → Bool
  | source (.run fault) => fault.breaksOff
  | _ => false

/-- The name of the project: the one given, or else that of the file. -/
def Arguments.projectName? (a : Arguments) : Option String :=
  (match a.name with
    | some name => some name
    | none => Path.stem? a.file).map Identifier.normalize

def Arguments.options (a : Arguments) : Options :=
  { Options.default with rows := a.rows, seed := a.seed }

def projectReport (project source : String) (stamp : Stamp) (run : Run) : Json :=
  .obj [("run_id", .str stamp.runId), ("project", .str project), ("source", .str source),
    ("generated_at", .str stamp.time),
    ("table_order", .arr (run.dataset.tableNames.map .str)),
    ("generation", run.report.toJson)]

section

variable {m : Type → Type} [Monad m] [Disk m]

/-- Makes the directories of a project. One that is there is removed if that is
allowed. -/
def ProjectPaths.prepare (p : ProjectPaths) (force : Bool) : m (Except Complaint Unit) := do
  if ← Disk.hasPath p.root then
    if !force then return .error (.projectExists p.root)
    if let .error fault ← Disk.removeDirectory p.root then return .error (.directory fault)
  return (← Disk.makeDirectories p.seeds).mapError .directory

/-- Writes the files of tables, up to the first that cannot be written. -/
def ProjectPaths.writeTables (p : ProjectPaths) : List DataTable → m (Except Complaint Unit)
  | [] => return .ok ()
  | t :: rest => do
    match ← Disk.write p.seeds (ProjectPaths.tableFile t.name) t.csv with
    | .ok () => p.writeTables rest
    | .error fault => return .error (.table fault)

/-- Writes a project: its directories, its tables and its report. -/
def ProjectPaths.writeProject (p : ProjectPaths) (force : Bool) (run : Run) (report : Json) :
    m (Except Complaint Unit) := do
  match ← p.prepare force with
  | .error complaint => return .error complaint
  | .ok () =>
    match ← p.writeTables run.dataset.tables with
    | .error complaint => return .error complaint
    | .ok () =>
      return (← Disk.replace p.root ProjectPaths.report report.pretty).mapError .directory

/-- Makes the project that the arguments ask for. Answers its run and its directory,
and the notices of the run. -/
def Arguments.makeProject (a : Arguments) (stamp : Stamp) :
    m (Except Complaint (Run × String) × List Notice) := do
  match a.projectName? with
  | none => return (.error (.unnamed a.file), [])
  | some name =>
    match ← generateFromFile a.file a.options with
    | (.error fault, notices) => return (.error (.source fault), notices)
    | (.ok (_, run), notices) =>
      let paths := ProjectPaths.ofName a.out name
      match ← paths.writeProject a.force run (projectReport name a.file stamp run) with
      | .ok () => return (.ok (run, paths.root), notices)
      | .error complaint => return (.error complaint, notices)

end

/-! ## The command line -/

/-- How a command ends: its exit code, what it prints, and what it says besides. -/
structure Outcome where
  code : UInt32
  output : String
  errors : String
  notices : List Notice

namespace Outcome

/-- The name and the version of the program. -/
def version : String := "model2data 0.1.0"

def help : String := String.intercalate "\n" [
  "Fill the tables of a schema with made-up data",
  "",
  "  --file <PATH>   the schema",
  "  --rows <ROWS>   rows of each table, at least 10 [default: 100]",
  "  --seed <SEED>   what the data follow from [default: 42]",
  "  --name <NAME>   name of the project [default: that of the schema file]",
  "  --out <OUT>     directory of the project [default: .]",
  "  --force         replace a project that is there",
  "  --log-json      write notices as JSON",
  "  -h, --help      print this",
  "  -V, --version   print the version"]

/-- The outcome of a command whose arguments make no sense. -/
def ofUsage (fault : UsageFault) : Outcome := ⟨2, "", "error: " ++ fault.message ++ "\n", []⟩

/-- The outcome of making a project. -/
def ofProject (rows : UInt64) : Except Complaint (Run × String) × List Notice → Outcome
  | (.ok (run, root), notices) =>
    ⟨0, "Generated " ++ toString run.dataset.tables.length ++ " tables with "
      ++ toString rows.toNat ++ " rows each in " ++ root ++ "\n", "", notices⟩
  | (.error complaint, notices) =>
    if complaint.breaksOff then ⟨101, "", complaint.message ++ "\n", notices⟩
    else ⟨1, complaint.message ++ "\n", "", notices⟩

end Outcome

def runCommand {m : Type → Type} [Monad m] [Disk m] (stamp : Stamp) (arguments : List String) :
    m Outcome := do
  match Arguments.request arguments with
  | .version => return ⟨0, Outcome.version ++ "\n", "", []⟩
  | .help => return ⟨0, Outcome.help ++ "\n", "", []⟩
  | .refuse fault => return Outcome.ofUsage fault
  | .run a => return Outcome.ofProject a.rows (← a.makeProject stamp)

end SeedData
