/-
Column settings: what stands in square brackets after a column's type. A token
is one setting; a list of tokens is a collection that keeps the order they were
first seen in. `Settings.insert` never adds a setting twice.
-/
import SeedData.Text.Lowercase
import SeedData.Text.Quote

namespace SeedData

/-- A setting of a column. -/
inductive Setting where
  | primaryKey
  | notNull
  | null
  | unique
  | increment
  /-- The value that a column takes when none is given, in lower case. -/
  | default (value : String)
  /-- A remark on the column, in lower case. -/
  | note (text : String)
  /-- Any other token, in lower case. -/
  | extension (token : String)
  deriving DecidableEq, Repr, Inhabited

namespace Setting

/-- The settings that stand for themselves, by their words. -/
def flag? (words : List Char) : Option Setting :=
  if words = "pk".toList ∨ words = "primary key".toList then some primaryKey
  else if words = "not null".toList then some notNull
  else if words = "null".toList then some null
  else if words = "unique".toList then some unique
  else if words = "increment".toList then some increment
  else none

/-- The setting that a key and a value make, if the key takes one. -/
def keyed? (key value : List Char) : Option Setting :=
  let value := String.ofList (Text.unquote value)
  if Text.trim key = "default".toList then some (default value)
  else if Text.trim key = "note".toList then some (note value)
  else none

/-- The setting of a token in lower case that is not empty: a known key before
the first colon, else a known flag, else the token itself. -/
def ofToken (token : List Char) : Setting :=
  let (key, rest) := token.span (· ≠ ':')
  let keyed := match rest with
    | [] => none
    | _ :: value => keyed? key value
  match keyed with
  | some s => s
  | none => (flag? (Text.collapse token)).getD (extension (String.ofList token))

/-- The setting that a token writes; an empty one writes none. -/
def parseChars (token : List Char) : Option Setting :=
  let token := Text.lowercase (Text.unquote token)
  if token.isEmpty then none else some (ofToken token)

/-- The setting that a token writes; an empty one writes none. -/
def parse? (token : String) : Option Setting := parseChars token.toList

def token : Setting → String
  | primaryKey => "pk"
  | notNull => "not null"
  | null => "null"
  | unique => "unique"
  | increment => "increment"
  | default value => "default: " ++ value
  | note text => "note: " ++ text
  | extension token => token

end Setting

/-- The settings of a column, in order. -/
structure Settings where
  toList : List Setting
  deriving DecidableEq, Repr, Inhabited

namespace Settings

def empty : Settings := ⟨[]⟩

def contains (s : Settings) (x : Setting) : Bool := decide (x ∈ s.toList)

/-- The settings with one more at the end, unless it is among them. -/
def insert (s : Settings) (x : Setting) : Settings :=
  if s.contains x then s else ⟨s.toList ++ [x]⟩

/-- The settings of a list, each once. -/
def ofList (l : List Setting) : Settings := l.foldl insert empty

def ofTokens (tokens : List (List Char)) : Settings := ofList (tokens.filterMap Setting.parseChars)

/-- The settings of the text between the brackets, at each comma a new token. -/
def parse (raw : String) : Settings := ofTokens (Text.splitOn (· == ',') raw.toList)

def tokens (s : Settings) : List String := s.toList.map Setting.token

/-- Whether the setting that the token writes is among them. -/
def containsToken (s : Settings) (token : String) : Bool :=
  match Setting.parse? token with
  | some x => s.contains x
  | none => false

def isPrimaryKey (s : Settings) : Bool := s.contains .primaryKey

def isUnique (s : Settings) : Bool := s.contains .unique

def isNotNull (s : Settings) : Bool := s.contains .notNull

end Settings
end SeedData
