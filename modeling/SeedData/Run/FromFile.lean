/-
From a schema file to data.
-/
import SeedData.Disk.Access
import SeedData.Run.FromText

namespace SeedData

/-- Why a schema file gives no data. -/
inductive FileFault where
  /-- There is no such file. -/
  | missing (path : String)
  /-- The file cannot be read. -/
  | unreadable (fault : DiskFault)
  /-- Its text gives no data. -/
  | run (fault : Fault)

def FileFault.message : FileFault → String
  | missing path => "schema file not found: " ++ path
  | unreadable fault => "io error: " ++ fault.message
  | run fault => fault.message

variable {m : Type → Type} [Monad m] [Disk m]

def readSchema (path : String) : m (Except FileFault String) := do
  match ← Disk.readText path with
  | .ok text => return .ok text
  | .error .notFound => return .error (.missing path)
  | .error fault => return .error (.unreadable fault)

/-- The schema in a file, made ready, and its run. -/
def generateFromFile (path : String) (options : Options) :
    m (Except FileFault (Prepared × Run) × List Notice) := do
  match ← readSchema path with
  | .error fault => return (.error fault, [])
  | .ok text =>
    let (result, notices) := generateFromText text options
    return (result.mapError .run, notices)

end SeedData
