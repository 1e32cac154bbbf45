/-
The arguments of the command line. They are read from left to right, and the first
that is wrong, or asks for something else than a run, decides.
-/
import SeedData.Column.Type

namespace SeedData

/-- What a run from the command line is asked for. -/
structure Arguments where
  /-- The path of the schema. -/
  file : String
  rows : UInt64
  seed : UInt64
  /-- The name of the project, if it is not to follow from the file's. -/
  name : Option String
  /-- The directory that the project's is made in. -/
  out : String
  /-- Whether a project that is there may be replaced. -/
  force : Bool
  /-- Whether notices are written as JSON. -/
  logJson : Bool
  deriving DecidableEq, Repr

/-- What is wrong with arguments. -/
inductive UsageFault where
  | unexpected (argument : String)
  | valueMissing (option : String)
  | valueUnexpected (flag : String)
  | repeated (option : String)
  | invalid (option value : String)
  | fileMissing
  deriving DecidableEq, Repr

def UsageFault.message : UsageFault → String
  | unexpected argument => "unexpected argument '" ++ argument ++ "'"
  | valueMissing option => "a value is required for '--" ++ option ++ "'"
  | valueUnexpected flag => "unexpected value for '--" ++ flag ++ "'"
  | repeated option => "'--" ++ option ++ "' is given more than once"
  | invalid option value => "invalid value '" ++ value ++ "' for '--" ++ option ++ "'"
  | fileMissing => "'--file' is required"

/-- What the command line asks for. -/
inductive Request where
  | version
  | help
  | refuse (fault : UsageFault)
  | run (arguments : Arguments)
  deriving DecidableEq, Repr

namespace Arguments

/-- The least number of rows that can be asked for. -/
def leastRows : Nat := 10

/-- The arguments read so far; those not given are `none`. -/
structure Partial where
  file : Option String
  rows : Option UInt64
  seed : Option UInt64
  name : Option String
  out : Option String
  force : Bool
  logJson : Bool

def Partial.empty : Partial := ⟨none, none, none, none, none, false, false⟩

/-- The arguments in full. A hundred rows, the seed 42 and the current directory
need not be given. -/
def Partial.finish (p : Partial) : Request :=
  match p.file with
  | none => .refuse .fileMissing
  | some file =>
    .run ⟨file, p.rows.getD 100, p.seed.getD 42, p.name, p.out.getD ".", p.force, p.logJson⟩

/-- The 64-bit number from `least` on that a text writes. -/
def number? (least : Nat) (text : String) : Option UInt64 :=
  match ColumnType.size? 0x10000000000000000 text.toList with
  | some n => if least ≤ n then some (UInt64.ofNat n) else none
  | none => none

/-- The text, unless it is empty. -/
def path? (text : String) : Option String := if text = "" then none else some text

/-- Reads the value of an option that may be given once. -/
def once {α : Type} (option value : String) (before : Option α) (read : String → Option α) :
    Except UsageFault (Option α) :=
  match before, read value with
  | some _, some _ => .error (.repeated option)
  | none, some a => .ok (some a)
  | _, none => .error (.invalid option value)

/-- The arguments with an option and its value. -/
def Partial.setOption (p : Partial) (option value : String) : Except UsageFault Partial :=
  match option with
  | "file" => do return { p with file := ← once option value p.file path? }
  | "rows" => do return { p with rows := ← once option value p.rows (number? leastRows) }
  | "seed" => do return { p with seed := ← once option value p.seed (number? 0) }
  | "name" => do return { p with name := ← once option value p.name some }
  | "out" => do return { p with out := ← once option value p.out path? }
  | _ => .error (.unexpected ("--" ++ option))

def takesValue (option : String) : Bool := ["file", "rows", "seed", "name", "out"].contains option

/-- Whether an argument can be the value of the option before it: it does not start
with a hyphen, or it is one. -/
def isValue (argument : String) : Bool :=
  argument.toList.head? ≠ some '-' || argument == "-"

/-- The arguments with a flag, or what else the flag asks for. -/
def Partial.setFlag (p : Partial) (flag : String) : Except Request Partial :=
  match flag with
  | "version" => .error .version
  | "help" => .error .help
  | "force" =>
    if p.force then .error (.refuse (.repeated flag)) else .ok { p with force := true }
  | "log-json" =>
    if p.logJson then .error (.refuse (.repeated flag)) else .ok { p with logJson := true }
  | _ => .error (.refuse (.unexpected ("--" ++ flag)))

/-- Whether the name is that of a flag. -/
def isFlag (name : String) : Bool := ["version", "help", "force", "log-json"].contains name

/-- An argument by its form. -/
inductive Form where
  /-- Two hyphens alone. -/
  | separator
  /-- Two hyphens and a name, with what follows an equals sign. -/
  | long (name : String) (value : Option String)
  /-- A hyphen and a letter, and maybe more. -/
  | short (letter : Char)
  | other
  deriving DecidableEq, Repr

def form (argument : String) : Form :=
  match argument.toList with
  | ['-', '-'] => .separator
  | '-' :: '-' :: r =>
    match r.span (· ≠ '=') with
    | (name, []) => .long (String.ofList name) none
    | (name, _ :: value) => .long (String.ofList name) (some (String.ofList value))
  | '-' :: c :: _ => .short c
  | _ => .other

/-- Reads arguments on from those read before. -/
def read (p : Partial) : List String → Request
  | [] => p.finish
  | argument :: rest =>
    match form argument with
    | .separator =>
      match rest with
      | [] => p.finish
      | next :: _ => .refuse (.unexpected next)
    | .short 'V' => .version
    | .short 'h' => .help
    | .short _ => .refuse (.unexpected argument)
    | .other => .refuse (.unexpected argument)
    | .long name (some value) =>
      if isFlag name then .refuse (.valueUnexpected name)
      else match p.setOption name value with
        | .ok p => read p rest
        | .error fault => .refuse fault
    | .long name none =>
      if takesValue name then
        match rest with
        | [] => .refuse (.valueMissing name)
        | value :: rest =>
          if isValue value then
            match p.setOption name value with
            | .ok p => read p rest
            | .error fault => .refuse fault
          else .refuse (.valueMissing name)
      else match p.setFlag name with
        | .ok p => read p rest
        | .error request => request

def request (arguments : List String) : Request := read Partial.empty arguments

end Arguments
end SeedData
