/-
The program: the command line, on the machine's disk.
-/
import Std.Time.DateTime.Timestamp
import SeedData.Command.Project
import SeedData.Random.Uuid

namespace SeedData

/-- The fault of an operating-system error with this number. Some numbers come
negated. -/
def DiskFault.ofNumber (reason : String) (number : UInt32) : DiskFault :=
  let number := if number < 0x80000000 then number else 0 - number
  if number = 2 then .notFound
  else if number = 17 then .alreadyExists
  else if number = 20 then .notADirectory
  else if number = 21 then .isADirectory
  else if number = 36 then .nameTooLong
  else .other reason number.toNat

/-- The fault that an error of the machine is. -/
def DiskFault.ofError : IO.Error → DiskFault
  | .alreadyExists _ number reason => ofNumber reason number
  | .otherError number reason => ofNumber reason number
  | .resourceBusy number reason => ofNumber reason number
  | .unsupportedOperation number reason => ofNumber reason number
  | .hardwareFault number reason => ofNumber reason number
  | .noFileOrDirectory _ number reason => ofNumber reason number
  | .invalidArgument _ number reason => ofNumber reason number
  | .permissionDenied _ number reason => ofNumber reason number
  | .resourceExhausted _ number reason => ofNumber reason number
  | .inappropriateType _ number reason => ofNumber reason number
  | .noSuchThing _ number reason => ofNumber reason number
  | error => .other (toString error) 0

/-- Runs an action of the machine, and answers its fault if it fails. -/
def attempt {α : Type} (action : IO α) : IO (Except DiskFault α) := do
  match ← action.toBaseIO with
  | .ok a => return .ok a
  | .error error => return .error (.ofError error)

/-- Where a file stands in the way of a directory, it is the file that is wrong. -/
def DiskFault.inTheWay : DiskFault → DiskFault
  | alreadyExists => notADirectory
  | fault => fault

instance : Disk IO where
  hasPath path := do return (← (IO.FS.realPath path).toBaseIO).isOk
  readBytes path := attempt (IO.FS.readBinFile path)
  makeDirectories path := do
    return (← attempt (IO.FS.createDirAll path)).mapError DiskFault.inTheWay
  removeDirectory path := attempt (IO.FS.removeDirAll path)
  write directory name text := attempt (IO.FS.writeFile (Path.join directory name) text)
  replace directory name text := attempt do
    let path := Path.join directory name
    IO.FS.writeFile (path ++ ".tmp") text
    IO.FS.rename (path ++ ".tmp") path

/-- The date and time of day in Greenwich, of a number of seconds since 1970. -/
def timeText (seconds : Int) : String :=
  let date : Date := ⟨seconds.fdiv secondsPerDay⟩
  let time := TimeOfDay.ofSeconds (seconds.fmod secondsPerDay).toNat
  date.text ++ "T" ++ time.text ++ "+00:00"

def Stamp.now : IO Stamp := do
  let seed := (← IO.getRandomBytes 8).toList.foldl (fun n b => 256 * n + b.toNat) 0
  let (runId, _) := Uuid.random.runSeed (UInt64.ofNat seed)
  let time ← Std.Time.Timestamp.now
  return ⟨runId, timeText time.toSecondsSinceUnixEpoch.val⟩

/-- The line of a notice in a log. -/
def Notice.line (json : Bool) (n : Notice) : String :=
  if json then n.toJson.compact
  else n.level.name ++ " " ++ n.message ++ " " ++ (Json.obj n.fields).compact

end SeedData

open SeedData in
def main (arguments : List String) : IO UInt32 := do
  let outcome ← runCommand (← Stamp.now) arguments
  let json := arguments.contains "--log-json"
  for notice in Notice.upTo .info outcome.notices do
    IO.eprintln (notice.line json)
  IO.eprint outcome.errors
  IO.print outcome.output
  return outcome.code
