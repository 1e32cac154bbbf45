/-
A tree of files held in memory: a disk that can be reasoned about. A location is
the list of names that lead to it from the root, which is always a directory. A
name has 255 bytes at most, and a path has less than 4096.
-/
import SeedData.Disk.Access
import SeedData.SortedMap

namespace SeedData

/-- A place in the tree: the names that lead to it, the last one first. -/
structure Location where
  names : List String
  deriving DecidableEq, Repr, Inhabited

namespace Location

def root : Location := ⟨[]⟩

/-- The directory that a place is in; the root is in itself. -/
def parent (l : Location) : Location := ⟨l.names.drop 1⟩

/-- The place of a name in a directory. -/
def child (l : Location) (name : String) : Location := ⟨name :: l.names⟩

/-- Whether the place is the given one or lies below it. -/
def isWithin (l directory : Location) : Bool := directory.names.isSuffixOf l.names

/-- The order of lists of names: by the first difference, a list before those that
go on from it. -/
def Before : List String → List String → Prop
  | _, [] => False
  | [], _ :: _ => True
  | a :: r, b :: s => a < b ∨ (a = b ∧ Before r s)

instance decideBefore : (a b : List String) → Decidable (Before a b)
  | [], [] => .isFalse (by simp [Before])
  | _ :: _, [] => .isFalse (by simp [Before])
  | [], _ :: _ => .isTrue trivial
  | a :: r, b :: s =>
    have := decideBefore r s
    inferInstanceAs (Decidable (a < b ∨ (a = b ∧ Before r s)))

theorem Before.irrefl : ∀ a : List String, ¬ Before a a
  | [] => id
  | a :: r => by
    rintro (h | h)
    · exact String.lt_irrefl a h
    · exact Before.irrefl r h.2

theorem Before.trans : ∀ {a b c : List String}, Before a b → Before b c → Before a c
  | [], _ :: _, _ :: _, _, _ => trivial
  | _ :: _, _ :: _, _ :: _, h, k => by
    rcases h with h | ⟨rfl, h⟩ <;> rcases k with k | ⟨rfl, k⟩
    · exact .inl (String.lt_trans h k)
    · exact .inl h
    · exact .inl k
    · exact .inr ⟨rfl, Before.trans h k⟩

theorem Before.trichotomy : ∀ a b : List String, Before a b ∨ a = b ∨ Before b a
  | [], [] => .inr (.inl rfl)
  | [], _ :: _ => .inl trivial
  | _ :: _, [] => .inr (.inr trivial)
  | a :: r, b :: s => by
    rcases KeyOrder.lt_trichotomy a b with h | rfl | h
    · exact .inl (.inl h)
    · rcases Before.trichotomy r s with h | rfl | h
      · exact .inl (.inr ⟨rfl, h⟩)
      · exact .inr (.inl rfl)
      · exact .inr (.inr (.inr ⟨rfl, h⟩))
    · exact .inr (.inr (.inl h))

instance : LT Location := ⟨fun a b => Before a.names b.names⟩

instance : DecidableLT Location := fun a b => decideBefore a.names b.names

instance : KeyOrder Location where
  lt_irrefl _ := Before.irrefl _
  lt_trans := Before.trans
  lt_trichotomy a b := by
    rcases Before.trichotomy a.names b.names with h | h | h
    · exact .inl h
    · exact .inr (.inl (by cases a; cases b; simp_all))
    · exact .inr (.inr h)

end Location

/-- What is at a place. -/
inductive Entry where
  | directory
  | file (content : ByteArray)
  deriving Inhabited

/-- A tree of files, and the directory that paths start from. -/
structure Tree where
  entries : SortedMap Location Entry
  start : Location

namespace Tree

def empty : Tree := ⟨SortedMap.empty, Location.root⟩

/-- What is at a place, if anything. -/
def entry? (t : Tree) (l : Location) : Option Entry :=
  if l = Location.root then some .directory else t.entries.get? l

/-- The tree with an entry at a place. -/
def put (t : Tree) (l : Location) (e : Entry) : Tree := { t with entries := t.entries.insert l e }

/-- The tree without a place and what lies below it. -/
def prune (t : Tree) (l : Location) : Tree :=
  { t with entries := t.entries.filter fun e => !e.1.isWithin l }

/-- Whether a name is longer than a disk allows. -/
def isLongName (name : String) : Bool := 255 < name.utf8ByteSize

/-- Whether a path is longer than a disk allows. -/
def isLongPath (path : String) : Bool := 4096 ≤ path.utf8ByteSize

/-- Where a path starts: at the root if a slash is in front. -/
def origin (t : Tree) (path : String) : Location :=
  if path.toList.head? = some '/' then Location.root else t.start

def walk (t : Tree) : Location → List String → Except DiskFault Location
  | here, [] => .ok here
  | here, name :: rest =>
    match t.entry? here with
    | none => .error .notFound
    | some (.file _) => .error .notADirectory
    | some .directory =>
      if Path.isIdle name then t.walk here rest
      else if name = ".." then t.walk here.parent rest
      else if isLongName name then .error .nameTooLong
      else if (t.entry? (here.child name)).isSome then t.walk (here.child name) rest
      else .error .notFound

/-- The place that a path leads to. -/
def locate (t : Tree) (path : String) : Except DiskFault Location :=
  if path = "" then .error .notFound
  else if isLongPath path then .error .nameTooLong
  else t.walk (t.origin path) (Path.pieces path)

/-- The bytes of the file at a path. -/
def readBytes (t : Tree) (path : String) : Except DiskFault ByteArray := do
  match t.entry? (← t.locate path) with
  | some (.file content) => .ok content
  | some .directory => .error .isADirectory
  | none => .error .notFound

/-- Makes the directories that the names lead through from a place. Those made
before a fault stay. -/
def build (t : Tree) : Location → List String → Except DiskFault Unit × Tree
  | here, [] =>
    match t.entry? here with
    | some .directory => (.ok (), t)
    | _ => (.error .alreadyExists, t)
  | here, name :: rest =>
    match t.entry? here with
    | none => (.error .notFound, t)
    | some (.file _) => (.error .notADirectory, t)
    | some .directory =>
      if Path.isIdle name then t.build here rest
      else if name = ".." then t.build here.parent rest
      else if isLongName name then (.error .nameTooLong, t)
      else if (t.entry? (here.child name)).isSome then t.build (here.child name) rest
      else (t.put (here.child name) .directory).build (here.child name) rest

/-- Makes the directory at a path, and those that lead to it. -/
def makeDirectories (t : Tree) (path : String) : Except DiskFault Unit × Tree :=
  if isLongPath path then (.error .nameTooLong, t) else t.build (t.origin path) (Path.pieces path)

/-- Removes the directory at a path with all that is in it. -/
def removeDirectory (t : Tree) (path : String) : Except DiskFault Unit × Tree :=
  match t.locate path with
  | .error fault => (.error fault, t)
  | .ok l =>
    match t.entry? l with
    | some .directory => (.ok (), t.prune l)
    | some (.file _) => (.error .notADirectory, t)
    | none => (.error .notFound, t)

/-- Writes the file of a name at a place. -/
def writeAt (t : Tree) (l : Location) (name : String) (content : ByteArray) :
    Except DiskFault Unit × Tree :=
  match t.entry? l with
  | none => (.error .notFound, t)
  | some (.file _) => (.error .notADirectory, t)
  | some .directory =>
    if isLongName name then (.error .nameTooLong, t)
    else match t.entry? (l.child name) with
      | some .directory => (.error .isADirectory, t)
      | _ => (.ok (), t.put (l.child name) (.file content))

/-- Writes the file of a name in the directory at a path. -/
def write (t : Tree) (directory name : String) (content : ByteArray) :
    Except DiskFault Unit × Tree :=
  if isLongPath (Path.join directory name) then (.error .nameTooLong, t)
  else match t.locate directory with
    | .ok l => t.writeAt l name content
    | .error fault => (.error fault, t)

/-- Gives the file of a name in the directory at a path another name, that of no directory. -/
def rename (t : Tree) (directory old new : String) : Except DiskFault Unit × Tree :=
  match t.locate directory with
  | .error fault => (.error fault, t)
  | .ok l =>
    match t.entry? (l.child old), t.entry? (l.child new) with
    | some (.file _), some .directory => (.error .isADirectory, t)
    | some (.file content), _ =>
      (.ok (), { t with entries := t.entries.erase (l.child old) }.put (l.child new) (.file content))
    | _, _ => (.error .notFound, t)

/-- What the name of a file has added while the file is written. -/
def unfinished (name : String) : String := name ++ ".tmp"

/-- Writes the file of a name in the directory at a path under another name first. -/
def replace (t : Tree) (directory name : String) (content : ByteArray) :
    Except DiskFault Unit × Tree :=
  match t.write directory (unfinished name) content with
  | (.error fault, t) => (.error fault, t)
  | (.ok (), t) => t.rename directory (unfinished name) name

end Tree

instance : Disk (StateM Tree) where
  hasPath path := fun t => ((t.locate path).isOk, t)
  readBytes path := fun t => (t.readBytes path, t)
  makeDirectories path := fun t => t.makeDirectories path
  removeDirectory path := fun t => t.removeDirectory path
  write directory name text := fun t => t.write directory name text.toUTF8
  replace directory name text := fun t => t.replace directory name text.toUTF8

end SeedData
