/-
The address of a column: its table and its name. Addresses are ordered by table,
then by column, and foreign keys are kept as a map from the child's address to
the parent's.
-/
import SeedData.Schema.Catalog
import SeedData.SortedMap

namespace SeedData

/-- The address of a column. -/
structure ColumnRef where
  table : String
  column : String
  deriving DecidableEq, Repr, Inhabited

namespace ColumnRef

/-- By table, then by column. -/
instance : LT ColumnRef := ⟨fun a b => PairLT (a.table, a.column) (b.table, b.column)⟩

instance : DecidableLT ColumnRef := fun a b =>
  inferInstanceAs (Decidable (PairLT (a.table, a.column) (b.table, b.column)))

instance : KeyOrder ColumnRef where
  lt_irrefl _ := PairLT.irrefl _
  lt_trans := PairLT.trans
  lt_trichotomy a b := by
    rcases PairLT.trichotomy (a.table, a.column) (b.table, b.column) with h | h | h
    · exact .inl h
    · exact .inr (.inl (by cases a; cases b; simp_all))
    · exact .inr (.inr h)

/-- Table and column with a dot between them. -/
def text (a : ColumnRef) : String := a.table ++ "." ++ a.column

end ColumnRef

def Reference.source (r : Reference) : ColumnRef := ⟨r.sourceTable, r.sourceColumn⟩

def Reference.target (r : Reference) : ColumnRef := ⟨r.targetTable, r.targetColumn⟩

/-- Foreign keys: the parent column of each child column that has one. -/
abbrev ForeignKeys := SortedMap ColumnRef ColumnRef

namespace ForeignKeys

/-- The foreign keys of a list of references; of two from one column the later
counts. -/
def ofReferences (refs : List Reference) : ForeignKeys :=
  refs.foldl (fun keys r => keys.insert r.source r.target) SortedMap.empty

/-- Whether some foreign key leads to the column. -/
def isTarget (keys : ForeignKeys) (column : ColumnRef) : Bool :=
  keys.entries.any (·.2 = column)

end ForeignKeys
end SeedData
