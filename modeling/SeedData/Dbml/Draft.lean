/-
A schema in the making. A draft holds what the text has said so far: the finished
tables and types, references as they are spelled, aliases, the blocks that are
open, and a header that waits for its brace.

References are kept as spelled until the whole text is read, since the alias that
one uses may be declared after it.
-/
import SeedData.Dbml.Code
import SeedData.Dbml.Relation
import SeedData.Identifier
import SeedData.Notice

namespace SeedData.Dbml

/-- A block of the text. -/
inductive Block where
  /-- A table, and its name as it is spelled. -/
  | table (table : Table) (spelled : String)
  | references
  | enum (type : EnumType)
  /-- A block that says nothing about the schema, with as many braces open. -/
  | skipped (depth : Nat)
  deriving DecidableEq, Repr, Inhabited

/-- A schema in the making. -/
structure Draft where
  catalog : Catalog
  /-- References in the order of the text. -/
  links : List Link
  /-- Aliases and the tables they stand for, the latest first. -/
  aliases : List (String × String)
  /-- The open blocks, the innermost first. -/
  blocks : List Block
  /-- The block whose brace is expected next. -/
  header : Option Block
  /-- What there is to say about the text, the latest first. -/
  notices : List Notice
  deriving Repr, Inhabited

namespace Draft

def start : Draft := ⟨.empty, [], [], [], none, []⟩

def notice (d : Draft) (n : Notice) : Draft := { d with notices := n :: d.notices }

/-- Opens a block inside those that are open. -/
def enter (d : Draft) (b : Block) : Draft := { d with blocks := b :: d.blocks }

def addTable (d : Draft) (t : Table) : Draft :=
  let parsed := d.notice (.tableParsed t.name t.columns.length)
  let added := { parsed with catalog := parsed.catalog.upsert t }
  if (d.catalog.table? t.name).isSome then added.notice (.tableRedefined t.name) else added

/-- Closes the innermost block, whose table or type is then part of the schema. -/
def close (d : Draft) : Draft :=
  match d.blocks with
  | [] => d
  | .table t _ :: outer => { d with blocks := outer }.addTable t
  | .enum e :: outer => { d with blocks := outer, catalog := d.catalog.replaceEnum e }
  | _ :: outer => { d with blocks := outer }

/-- Closes as many blocks as there are in the list. -/
def closeEach (d : Draft) : List Block → Draft
  | [] => d
  | _ :: r => d.close.closeEach r

/-! ## References -/

/-- Keeps the reference that two columns with a mark between them make. -/
def addLink (d : Draft) (left : Endpoint) (mark : Mark) (right : Endpoint) (text : List Char) :
    Draft :=
  match link? left mark right with
  | some l => { d with links := d.links ++ [l] }
  | none => d.notice (.manyToMany (String.ofList (Text.trim text)))

def relation (d : Draft) (text : List Char) : Draft :=
  match relation? text with
  | none => d.notice (.malformedReference (String.ofList (Text.trim text)))
  | some (left, mark, right) =>
    match endpoint? left, endpoint? right with
    | some left, some right => d.addLink left mark right text
    | _, _ => d.notice (.unusableEndpoint (String.ofList (Text.trim text)))

/-- Keeps the reference that is written beside a column. -/
def inlineRelation (d : Draft) (here : Endpoint) (text : List Char) : Draft :=
  match inlineRelation? text with
  | none => d.notice (.malformedInlineReference (String.ofList (Text.trim text)))
  | some (mark, target) =>
    match endpoint? target with
    | some target => d.addLink here mark target text
    | none => d.notice (.unusableEndpoint (String.ofList (Text.trim text)))

/-! ## Columns -/

/-- The text before the last closing square bracket, or all of it. -/
def upToBracket (s : List Char) : List Char :=
  match s.reverse.dropWhile (· != ']') with
  | [] => s
  | _ :: before => before.reverse

/-- A column as its line writes it: its name, its type, and the text of its
settings. -/
structure ColumnText where
  name : List Char
  dataType : List Char
  settings : Option (List Char)

/-- The parts of a column's line. The name ends at the first blank, the type at
the first opening square bracket, both outside quotes. -/
def columnText (line : List Char) : ColumnText :=
  let (name, rest) := Text.breakOutside Text.isBlank none line
  let (dataType, settings) := Text.breakOutside (· == '[') none (Text.trim rest)
  { name := Text.unquote name
    dataType := Text.unquote dataType
    settings := settings.tail?.map upToBracket }

/-- The text of the reference that an entry of a settings list writes, if it
writes one rather than a setting. -/
def inlineText? (entry : List Char) : Option (Option (List Char)) :=
  if leadingKeyword entry = "ref".toList ∧ isDirective "ref".toList entry then
    some ((entry.dropWhile (· != ':')).tail?)
  else none

/-- The entries of a settings list. -/
def settingEntries (settings : Option (List Char)) : List (List Char) :=
  match settings with
  | none => []
  | some s => (Text.splitOutside (· == ',') none s).map Text.trim

/-- The settings among the entries of a settings list. -/
def columnSettings (entries : List (List Char)) : Settings :=
  Settings.ofTokens (entries.filter fun e => (inlineText? e).isNone)

/-- The texts of the references among the entries of a settings list. -/
def inlineTexts (entries : List (List Char)) : List (List Char) :=
  entries.filterMap fun e => (inlineText? e).join

def columnLine (d : Draft) (t : Table) (spelled : String) (outer : List Block) (line : List Char) :
    Draft :=
  let text := columnText line
  let name := String.ofList text.name
  if text.name.isEmpty then d.notice (.columnWithoutName t.name (String.ofList line))
  else if text.dataType.isEmpty then d.notice (.columnWithoutType t.name name)
  else
    let entries := settingEntries text.settings
    match t.pushColumn? ⟨name, String.ofList text.dataType, columnSettings entries⟩ with
    | none => d.notice (.duplicateColumn t.name name)
    | some t =>
      (inlineTexts entries).foldl (fun d text => d.inlineRelation ⟨spelled, name⟩ text)
        { d with blocks := .table t spelled :: outer }

/-- Reads a label of the innermost enumerated type. -/
def labelLine (d : Draft) (e : EnumType) (outer : List Block) (line : List Char) : Draft :=
  let label := Text.unquote (Text.breakOutside Text.isBlank none line).1
  if label.isEmpty then d
  else { d with blocks := .enum { e with labels := e.labels ++ [String.ofList label] } :: outer }

/-- Counts the braces of a line in a skipped block, which ends with the last that
closes. -/
def skippedLine (d : Draft) (depth : Nat) (outer : List Block) (line : List Char) : Draft :=
  let opened := depth + Text.countOutside (· == '\x7b') none line
  match opened - Text.countOutside (· == '\x7d') none line with
  | 0 => { d with blocks := outer }
  | depth => { d with blocks := .skipped depth :: outer }

/-! ## The finished schema -/

/-- The table that an endpoint's spelling means: the one it is an alias of, or
the one of its own identifier. -/
def resolve (d : Draft) (spelled : String) : String :=
  (d.aliases.lookup spelled).getD (Identifier.normalize spelled)

/-- A reference between the tables that its spelling means. -/
def reference (d : Draft) (l : Link) : Reference :=
  ⟨d.resolve l.child.table, l.child.column, d.resolve l.parent.table, l.parent.column⟩

/-- The schema of a draft whose blocks are closed. -/
def schema (d : Draft) : Schema := ⟨d.catalog, d.links.map d.reference⟩

/-- The draft after the end of the text: what is open is closed. -/
def finish (d : Draft) (carry : Carry) : Draft :=
  let d := if carry = .longString then d.notice .unterminatedString else d
  if d.blocks.isEmpty then d
  else (d.notice (.unterminatedBlock d.blocks.length)).closeEach d.blocks

end Draft
end SeedData.Dbml
