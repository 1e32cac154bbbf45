/-
What a run does with a disk. The operations are a class, so that one definition of
a run works on the machine's disk and on a tree of files held in memory.

Paths are text: names with slashes between them. Empty names and single dots do not
count, and two dots lead back.
-/
import SeedData.Text.Blank

namespace SeedData

/-! ## Paths -/

namespace Path

/-- The names between the slashes, empty ones included. -/
def pieces (path : String) : List String :=
  (Text.splitOn (· == '/') path.toList).map String.ofList

def isIdle (name : String) : Bool := name == "" || name == "."

/-- The path of a name in a directory. -/
def join (directory name : String) : String :=
  if directory.toList.getLast? = some '/' then directory ++ name else directory ++ "/" ++ name

/-- The last name of a path, unless the path leads back or to where it starts. -/
def name? (path : String) : Option String :=
  match ((pieces path).filter fun name => !isIdle name).getLast? with
  | some name => if name = ".." then none else some name
  | none => none

/-- A name without what follows its last dot. A dot in front does not count. -/
def stemOf (name : String) : String :=
  match name.toList.reverse.span (· ≠ '.') with
  | (_, '.' :: c :: before) => String.ofList (c :: before).reverse
  | _ => name

/-- The last name of a path, without what follows its last dot. -/
def stem? (path : String) : Option String := (name? path).map stemOf

end Path

/-! ## Operations -/

/-- Why a disk refuses an operation. -/
inductive DiskFault where
  | notFound
  | alreadyExists
  | notADirectory
  | isADirectory
  | nameTooLong
  /-- The bytes of a file are no text. -/
  | notText
  | other (reason : String) (code : Nat)
  deriving DecidableEq, Repr

namespace DiskFault

/-- What to say about a fault that has a number. -/
def numbered (reason : String) (code : Nat) : String :=
  reason ++ " (os error " ++ toString code ++ ")"

def message : DiskFault → String
  | notFound => numbered "No such file or directory" 2
  | alreadyExists => numbered "File exists" 17
  | notADirectory => numbered "Not a directory" 20
  | isADirectory => numbered "Is a directory" 21
  | nameTooLong => numbered "File name too long" 36
  | notText => "stream did not contain valid UTF-8"
  | other reason code => numbered reason code

end DiskFault

/-- The operations of a disk. -/
class Disk (m : Type → Type) where
  /-- Whether a path leads to a file or a directory. -/
  hasPath : String → m Bool
  /-- The bytes of the file at a path. -/
  readBytes : String → m (Except DiskFault ByteArray)
  /-- Makes the directory at a path, and those that lead to it. -/
  makeDirectories : String → m (Except DiskFault Unit)
  /-- Removes the directory at a path with all that is in it. -/
  removeDirectory : String → m (Except DiskFault Unit)
  /-- Writes the file of a name in a directory, over one that is there. -/
  write : String → String → String → m (Except DiskFault Unit)
  /-- Writes the file of a name in a directory; whoever reads it meanwhile finds the
  old file or the new one. -/
  replace : String → String → String → m (Except DiskFault Unit)

/-- The text of the file at a path. -/
def Disk.readText {m : Type → Type} [Monad m] [Disk m] (path : String) :
    m (Except DiskFault String) := do
  match ← Disk.readBytes path with
  | .error fault => return .error fault
  | .ok bytes =>
    match String.fromUTF8? bytes with
    | some text => return .ok text
    | none => return .error .notText

end SeedData
