/-
References told apart. The classification splits a list of references into foreign keys and
references to attributes, neither losing nor moving any. A foreign key counts unless a later one
leads from its column (`Catalog.Decides`), whatever stands between the two. The map of foreign keys
holds those that count (`references_are_told_apart`).
-/
import SeedData.Proofs.PlanFacts
import SeedData.Schema.Classification

namespace SeedData

variable {catalog : Catalog} {refs : List Reference} {r : Reference} {source parent : ColumnRef}
  {keys : ForeignKeys}

/-- The last of the members with a property is the one that no other of them follows. -/
theorem getLast?_filter_eq_some_iff {α : Type} {p : α → Bool} {l : List α} {a : α} :
    (l.filter p).getLast? = some a ↔
      ∃ before after, l = before ++ a :: after ∧ p a = true ∧ ∀ b ∈ after, p b = false := by
  rw [List.getLast?_filter, List.find?_eq_some_iff_append]
  constructor
  · rintro ⟨ha, after, before, hl, hafter⟩
    refine ⟨before.reverse, after.reverse, ?_, ha, fun b hb => ?_⟩
    · simpa using congrArg List.reverse hl
    · simpa using hafter b (List.mem_reverse.1 hb)
  · rintro ⟨before, after, rfl, ha, hafter⟩
    refine ⟨ha, after.reverse, before.reverse, by simp, fun b hb => ?_⟩
    simpa using hafter b (List.mem_reverse.1 hb)

namespace Catalog

/-- Whether there is no table of the name, or no column of the name in it. -/
def lacks (c : Catalog) (ref : ColumnRef) : Bool :=
  (c.table? ref.table).all fun t => !(t.columns.map (·.name)).contains ref.column

/-- Whether the column is there and identifies the rows of its table. -/
def identifies (c : Catalog) (ref : ColumnRef) : Bool :=
  (c.column? ref.table ref.column).any Column.isKeyLike

theorem column?_eq_none_iff (ref : ColumnRef) :
    catalog.column? ref.table ref.column = none ↔ catalog.lacks ref = true := by
  unfold column? lacks
  cases catalog.table? ref.table with
  | none => simp
  | some t => simp [Table.column?]

theorem targetKind_eq_key_iff : catalog.targetKind r = .key ↔ catalog.identifies r.target = true := by
  unfold targetKind identifies
  cases h : catalog.column? r.targetTable r.targetColumn with
  | none => simp [Reference.target, h]
  | some column => by_cases hkey : column.isKeyLike = true <;> simp [Reference.target, h, hkey]

theorem targetKind_eq_missing_iff : catalog.targetKind r = .missing ↔ catalog.lacks r.target = true := by
  rw [← column?_eq_none_iff]
  unfold targetKind
  cases h : catalog.column? r.targetTable r.targetColumn with
  | none => simp [Reference.target, h]
  | some column => by_cases hkey : column.isKeyLike = true <;> simp [Reference.target, h, hkey]

/-- The reference is a foreign key of the list, and no later one leads from its column. -/
def Decides (c : Catalog) (refs : List Reference) (r : Reference) : Prop :=
  ∃ earlier later, refs = earlier ++ r :: later ∧ c.identifies r.target = true ∧
    ∀ q ∈ later, q.source = r.source → c.identifies q.target = false

theorem foreignKeys_classify (catalog : Catalog) (refs : List Reference) :
    (catalog.classify refs).foreignKeys = refs.filter (catalog.identifies ·.target) :=
  List.filter_congr fun r _ => by simp [targetKind_eq_key_iff]

/-- The foreign keys of a list of references are those that count. -/
theorem get?_foreignKeys_classify :
    (ForeignKeys.ofReferences (catalog.classify refs).foreignKeys).get? source = some parent ↔
      ∃ r, catalog.Decides refs r ∧ r.source = source ∧ r.target = parent := by
  rw [ForeignKeys.get?_ofReferences, foreignKeys_classify, List.filter_filter, Option.map_eq_some_iff]
  refine exists_congr fun r => ?_
  rw [getLast?_filter_eq_some_iff, Decides]
  constructor
  · rintro ⟨⟨earlier, later, hl, hr, hlater⟩, htarget⟩
    simp only [Bool.and_eq_true, decide_eq_true_eq] at hr
    refine ⟨⟨earlier, later, hl, hr.2, fun q hq hsource => ?_⟩, hr.1, htarget⟩
    simpa [hsource, hr.1] using hlater q hq
  · rintro ⟨⟨earlier, later, hl, hr, hlater⟩, rfl, htarget⟩
    refine ⟨⟨earlier, later, hl, by simp [hr], fun q hq => ?_⟩, htarget⟩
    by_cases hsource : q.source = r.source
    · simp [hsource, hlater q hq hsource]
    · simp [hsource]

end Catalog

theorem ForeignKeys.isTarget_iff : keys.isTarget parent = true ↔ ∃ source, keys.get? source = some parent := by
  simp only [isTarget, List.any_eq_true, decide_eq_true_eq, Prod.exists, exists_eq_right,
    SortedMap.get?_eq_some_iff]

/-- **References are told apart without losing or moving any**: those to columns that identify
rows are foreign keys, all others lead to attributes, and the unresolved ones are the references
whose target does not exist. A column has the parent that the last foreign key from it in the
whole list leads to, and these parents are the targets. -/
theorem references_are_told_apart (catalog : Catalog) (refs : List Reference) :
    let classified := catalog.classify refs
    let keys := ForeignKeys.ofReferences classified.foreignKeys
    (∀ r ∈ classified.foreignKeys, r ∉ classified.attributes) ∧
    (classified.foreignKeys ++ classified.attributes).Perm refs ∧
    classified.foreignKeys.Sublist refs ∧ classified.attributes.Sublist refs ∧
    classified.unresolved = refs.filter (catalog.lacks ·.target) ∧
    (∀ source parent, keys.get? source = some parent ↔
      ∃ r, catalog.Decides refs r ∧ r.source = source ∧ r.target = parent) ∧
    ∀ parent, keys.isTarget parent = true ↔ ∃ r, catalog.Decides refs r ∧ r.target = parent := by
  refine ⟨fun r hr hattribute => ?_, ?_, List.filter_sublist, List.filter_sublist, ?_,
    fun source parent => Catalog.get?_foreignKeys_classify, fun parent => ?_⟩
  · have hkey := (List.mem_filter.1 hr).2
    have hother := (List.mem_filter.1 hattribute).2
    simp only [decide_eq_true_eq] at hkey hother
    exact hother hkey
  · have hsplit := List.filter_append_perm (catalog.targetKind · = .key) refs
    simpa only [Catalog.classify, ne_eq, decide_not] using hsplit
  · exact List.filter_congr fun r _ => by simp [Catalog.targetKind_eq_missing_iff]
  · rw [ForeignKeys.isTarget_iff]
    simp only [Catalog.get?_foreignKeys_classify]
    constructor
    · rintro ⟨source, r, hr, -, htarget⟩
      exact ⟨r, hr, htarget⟩
    · rintro ⟨r, hr, htarget⟩
      exact ⟨r.source, r, hr, rfl, htarget⟩

end SeedData
