/-
The values that columns hold, as text of a table file and as JSON.
-/
import SeedData.Calendar
import SeedData.Json.Value

namespace SeedData

/-- A value of a column. -/
inductive Value where
  | null
  | bool (b : Bool)
  | int (n : Int64)
  | float (x : Float)
  | text (s : String)
  | uuid (s : String)
  | date (d : Date)
  | time (t : TimeOfDay)
  | timestamp (d : Date) (t : TimeOfDay)
  deriving Repr, Inhabited

namespace Value

def isNull : Value → Bool
  | null => true
  | _ => false

def int? : Value → Option Int64
  | int n => some n
  | _ => none

/-- The text that the value is, an identifier included. -/
def text? : Value → Option String
  | text s => some s
  | uuid s => some s
  | _ => none

/-- The text of the value in a table file; nothing for a missing one. -/
def csv : Value → String
  | null => ""
  | bool b => if b then "true" else "false"
  | int n => toString n.toInt
  | float x => Decimal.text x
  | text s => s
  | uuid s => s
  | date d => d.text
  | time t => t.text
  | timestamp d t => d.text ++ " " ++ t.text

/-- The value as JSON: a date or a time is its text, with a `T` between the two. -/
def toJson : Value → Json
  | null => .null
  | bool b => .bool b
  | int n => .int n.toInt
  | float x => .float x
  | text s => .str s
  | uuid s => .str s
  | date d => .str d.text
  | time t => .str t.text
  | timestamp d t => .str (d.text ++ "T" ++ t.text)

def date? : Value → Option Date
  | date d => some d
  | timestamp d _ => some d
  | _ => none

/-- Whether the value has no date outside the supported years. -/
def isSupported (v : Value) : Bool := v.date?.all Date.isSupported

end Value
end SeedData
