/-
What a reference is for. One to a column that identifies rows is a foreign key;
one to any other column takes an attribute from the row that a foreign key
leads to. A reference to a column that does not exist counts as the latter.
-/
import SeedData.Schema.ColumnRef

namespace SeedData

/-- What a reference leads to. -/
inductive TargetKind where
  | key
  | attribute
  | missing
  deriving DecidableEq, Repr

/-- What a reference leads to in the schema. -/
def Catalog.targetKind (c : Catalog) (r : Reference) : TargetKind :=
  match c.column? r.targetTable r.targetColumn with
  | some column => if column.isKeyLike then .key else .attribute
  | none => .missing

/-- References by what they are for, each list in the order of all. -/
structure Classification where
  foreignKeys : List Reference
  /-- The references that are not foreign keys. -/
  attributes : List Reference
  /-- Those of `attributes` whose target does not exist. -/
  unresolved : List Reference
  deriving DecidableEq, Repr

/-- The references by what they lead to in the schema. -/
def Catalog.classify (c : Catalog) (refs : List Reference) : Classification where
  foreignKeys := refs.filter (c.targetKind · = .key)
  attributes := refs.filter (c.targetKind · ≠ .key)
  unresolved := refs.filter (c.targetKind · = .missing)

end SeedData
