/-
Reading data out of JSON values. A record is an object of named members, of which
others than its own are ignored, or a list of its fields in order. A decoder
answers `none` to a value of another shape.
-/
import SeedData.Json.Value

namespace SeedData.Json

def str? : Json → Option String
  | .str s => some s
  | _ => none

/-- The elements of a value that is a list. -/
def arr? : Json → Option (List Json)
  | .arr elements => some elements
  | _ => none

/-- The members of a value that is an object. -/
def obj? : Json → Option (List (String × Json))
  | .obj members => some members
  | _ => none

/-- The 64-bit number that a value is: not negative, without fraction. -/
def word? : Json → Option UInt64
  | .int n => if 0 ≤ n ∧ n < 0x10000000000000000 then some (UInt64.ofNat n.toNat) else none
  | _ => none

def float? : Json → Option Float
  | .float x => some x
  | .int n => some (Float.ofInt n)
  | _ => none

/-- The elements of a list, each read by `f`. -/
def list? {α : Type} (f : Json → Option α) (v : Json) : Option (List α) := do
  (← v.arr?).mapM f

def member? (members : List (String × Json)) (name : String) : Option Json :=
  (members.find? (·.1 = name)).map (·.2)

/-- The fields of a record, as values for the given names; `none` for a field that
is not there. A list may leave out fields at its end, and may not go on after the
last. -/
def fields? (names : List String) : Json → Option (List (Option Json))
  | .obj members => some (names.map (member? members))
  | .arr elements =>
    if elements.length ≤ names.length then
      some (elements.map some ++ List.replicate (names.length - elements.length) none)
    else none
  | _ => none

/-- A field that a record may leave out, or have `null`. -/
def optional? {α : Type} (f : Json → Option α) : Option Json → Option (Option α)
  | none => some none
  | some .null => some none
  | some v => (f v).map some

/-- A field that a record may leave out for a value of its own. -/
def orElse? {α : Type} (fallback : α) (f : Json → Option α) : Option Json → Option α
  | none => some fallback
  | some v => f v

end SeedData.Json
