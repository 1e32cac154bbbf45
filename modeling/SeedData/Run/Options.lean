/-
What a run is asked for: how many rows, from which seed, and the two numbers that
shape the values.
-/
import SeedData.Calendar
import SeedData.Json.Decode

namespace SeedData

/-- What a run is asked for. -/
structure Options where
  /-- How many rows each table gets. -/
  rows : UInt64
  /-- What all random choices follow from. -/
  seed : UInt64
  /-- How many references of a table to itself stay empty: none at zero, all at
  one. -/
  nullRate : Float
  /-- The date that dates are near. -/
  baseDate : Date
  deriving Repr

namespace Options

/-- A hundred rows. -/
def default : Options := ⟨100, 42, 0.2, Date.ofCivil ⟨2024, 1, 1⟩⟩

/-- Whether the rate is a number from zero to one. -/
def isValid (o : Options) : Bool := 0.0 ≤ o.nullRate && o.nullRate ≤ 1.0

def toJson (o : Options) : Json :=
  .obj [("rows", .int o.rows.toNat), ("seed", .int o.seed.toNat),
    ("self_ref_null_rate", .float o.nullRate), ("base_date", .str o.baseDate.text)]

def ofJson? (v : Json) : Option Options := do
  let [rows, seed, nullRate, baseDate] ←
    v.fields? ["rows", "seed", "self_ref_null_rate", "base_date"] | none
  return ⟨← (← rows).word?, ← (← seed).word?, ← (← nullRate).float?,
    ← Date.ofText? (← (← baseDate).str?)⟩

end Options
end SeedData
