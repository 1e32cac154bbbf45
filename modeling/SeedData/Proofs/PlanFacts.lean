/-
What the plan of a table says of a column: where its values come from, what that comes
to once there are pools, and which issues of the table are about the column.
-/
import Mathlib.Data.List.Induction
import Mathlib.Data.List.Nodup
import SeedData.Run.Plan

namespace SeedData

variable {catalog : Catalog} {keys : ForeignKeys} {attributes : List Reference}
  {targets : SortedMap ColumnRef ColumnRef} {order : TableOrder} {table : Table} {column : Column}
  {ref target : ColumnRef} {pools : Pools} {pool : Array Value} {removed : Bool} {type : ColumnType}

/-! ## Sources -/

theorem TableOrder.isRemoved_iff {parent child : String} :
    order.isRemoved parent child = true ↔ (⟨parent, child⟩ : Edge) ∈ order.removed := by
  unfold isRemoved
  rw [List.any_eq_true]
  constructor
  · intro h
    obtain ⟨e, he, hp⟩ := h
    simp only [Bool.and_eq_true, decide_eq_true_eq] at hp
    rwa [← hp.1, ← hp.2]
  · intro h
    exact ⟨_, h, by simp⟩

theorem sourceOf_eq_parent_iff :
    sourceOf catalog keys targets order table column = .parent target removed ↔
      keys.get? ⟨table.name, column.name⟩ = some target ∧ target.table ≠ table.name ∧
        order.isRemoved target.table table.name = removed := by
  unfold sourceOf
  cases hkey : keys.get? ⟨table.name, column.name⟩ with
  | none =>
    cases htarget : targets.get? ⟨table.name, column.name⟩ with
    | none => by_cases h : (column.isKeyLike || column.settings.isUnique) = true <;> simp [h]
    | some t => simp
  | some t =>
    by_cases h : t.table = table.name
    · simp only [h, if_true, Option.some.injEq, reduceCtorEq, false_iff]
      intro hno
      exact hno.2.1 (hno.1 ▸ h)
    · simp only [h, if_false, Option.some.injEq, Source.parent.injEq]
      constructor
      · intro heq
        obtain ⟨rfl, rfl⟩ := heq
        exact ⟨rfl, h, rfl⟩
      · intro heq
        obtain ⟨rfl, -, rfl⟩ := heq
        exact ⟨rfl, rfl⟩

theorem TableOrder.isRemoved_eq_false_iff {parent child : String} :
    order.isRemoved parent child = false ↔ (⟨parent, child⟩ : Edge) ∉ order.removed := by
  rw [← isRemoved_iff, Bool.not_eq_true]

/-- Of the foreign keys from one column the last counts. -/
theorem ForeignKeys.get?_ofReferences (refs : List Reference) (ref : ColumnRef) :
    (ForeignKeys.ofReferences refs).get? ref =
      ((refs.filter fun r => r.source = ref).getLast?).map Reference.target := by
  unfold ofReferences
  induction refs using List.reverseRecOn with
  | nil => rfl
  | append_singleton rs r ih =>
    rw [List.foldl_append, List.foldl_cons, List.foldl_nil, SortedMap.get?_insert, ih, List.filter_append]
    by_cases hr : r.source = ref
    · simp [hr]
    · simp [hr, Ne.symm hr]

theorem ForeignKeys.get?_ofReferences_eq_none {refs : List Reference} (h : ∀ r ∈ refs, r.source ≠ ref) :
    (ForeignKeys.ofReferences refs).get? ref = none := by
  have hnone : refs.filter (fun r => r.source = ref) = [] := by
    simpa [List.filter_eq_nil_iff] using h
  rw [ForeignKeys.get?_ofReferences, hnone]
  rfl

/-- References to attributes are looked up as foreign keys are, but for those from a column
that is one. -/
theorem attributeTargets_eq (keys : ForeignKeys) (attributes : List Reference) :
    attributeTargets keys attributes =
      ForeignKeys.ofReferences (attributes.filter fun r => !keys.contains r.source) := List.foldl_map

/-- Of the references to attributes from a column that is no foreign key, the last
counts. -/
theorem get?_attributeTargets (h : keys.get? ref = none) :
    (attributeTargets keys attributes).get? ref =
      ((attributes.filter fun r => r.source = ref).getLast?).map Reference.target := by
  have hfilter : (attributes.filter fun r => !keys.contains r.source).filter (fun r => r.source = ref) =
      attributes.filter fun r => r.source = ref := by
    rw [List.filter_filter]
    refine List.filter_congr fun r _ => ?_
    by_cases hr : r.source = ref
    · simp [hr, SortedMap.contains, h]
    · simp [hr]
  rw [attributeTargets_eq, ForeignKeys.get?_ofReferences, hfilter]

/-- A column that is no foreign key is taken from no attribute exactly if nothing refers from it. -/
theorem get?_attributeTargets_eq_none_iff (h : keys.get? ref = none) :
    (attributeTargets keys attributes).get? ref = none ↔ ∀ r ∈ attributes, r.source ≠ ref := by
  rw [get?_attributeTargets h, Option.map_eq_none_iff, List.getLast?_eq_none_iff, List.filter_eq_nil_iff]
  simp only [decide_eq_true_eq]

/-- A column is filled with keys exactly if it is unique, no foreign key, and taken from no
attribute. -/
theorem sourceOf_eq_key_iff : sourceOf catalog keys targets order table column = .key type ↔
    keys.get? ⟨table.name, column.name⟩ = none ∧ targets.get? ⟨table.name, column.name⟩ = none ∧
      (column.isKeyLike || column.settings.isUnique) = true ∧
        ColumnType.resolve catalog column.dataType = type := by
  unfold sourceOf
  cases hkey : keys.get? ⟨table.name, column.name⟩ with
  | some parent => by_cases h : parent.table = table.name <;> simp [h]
  | none =>
    cases htarget : targets.get? ⟨table.name, column.name⟩ with
    | some target => simp
    | none => by_cases h : (column.isKeyLike || column.settings.isUnique) = true <;> simp [h]

theorem mem_retainedColumns_of_key (h : keys.get? ref = some target) :
    (retainedColumns catalog keys attributes).contains target = true := by
  rw [SortedSet.contains_iff, retainedColumns, SortedSet.mem_toList_ofList]
  have hmem := SortedMap.get?_eq_some_iff.1 h
  exact List.mem_append_left _ (List.mem_append_right _ (List.mem_map.2 ⟨_, hmem, rfl⟩))

theorem mem_retainedColumns_of_attribute {r : Reference} (h : r ∈ attributes) :
    (retainedColumns catalog keys attributes).contains r.target = true := by
  rw [SortedSet.contains_iff, retainedColumns, SortedSet.mem_toList_ofList]
  exact List.mem_append_right _ (List.mem_map_of_mem h)

/-! ## Feeds -/

theorem Pools.available?_eq_some_iff :
    pools.available? ref = some pool ↔ pools.values? ref = some pool ∧ 0 < pool.size := by
  simp [available?, Option.filter_eq_some_iff, Array.size_pos_iff]

theorem Source.feed_eq_sample_iff {source : Source} {name : String} :
    source.feed pools ref = .sample name pool ↔
      ∃ target, source = .parent target false ∧ target.table = name ∧
        pools.available? target = some pool := by
  cases source with
  | parent target removed =>
    cases h : pools.available? target <;> cases removed <;> simp [feed, h]
  | earlier place => cases place <;> simp [feed]
  | shared target type =>
    cases h : pools.available? target with
    | none => simp [feed, h]
    | some p => by_cases ht : target.table = ref.table <;> simp [feed, h, ht]
  | key | random => simp [feed]

/-- A foreign key that was given up, or finds no value, leaves its column empty. -/
theorem Source.feed_parent_eq_empty
    (h : ¬ (removed = false ∧ (pools.available? target).isSome = true)) :
    (Source.parent target removed).feed pools ref = .empty ((Shortfall.noParent target).issue ref) := by
  cases hp : pools.available? target with
  | none => simp [feed, hp]
  | some p => cases removed <;> simp [feed, hp] at h ⊢

theorem Source.feed_eq_shared_iff {source : Source} {name : String} :
    source.feed pools ref = .shared name pool ↔
      ∃ target type, source = .shared target type ∧ target.table = name ∧ target.table ≠ ref.table ∧
        pools.available? target = some pool := by
  cases source with
  | parent target removed =>
    cases h : pools.available? target <;> cases removed <;> simp [feed, h]
  | earlier place => cases place <;> simp [feed]
  | shared target type =>
    cases h : pools.available? target with
    | none => simp [feed, h]
    | some p => by_cases ht : target.table = ref.table <;> simp [feed, h, ht]
  | key | random => simp [feed]

/-! ## Issues -/

/-- The issue that the first pass over the column has to report. -/
def Feed.orphan? : Feed → Option Issue
  | empty issue => some issue
  | _ => none

/-- The issue that the second pass over the column has to report. -/
def Feed.fallback? : Feed → Option Issue
  | random _ _ issue => issue
  | _ => none

/-- The shortfall of a foreign key that finds no value. -/
def Source.orphan? (pools : Pools) : Source → Option Shortfall
  | parent target removed =>
    if removed || (pools.available? target).isNone then some (.noParent target) else none
  | earlier none => some .noColumn
  | _ => none

/-- The shortfall of an attribute that is not there. -/
def Source.fallback? (pools : Pools) (table : String) : Source → Option Shortfall
  | shared target _ =>
    if target.table = table || (pools.available? target).isNone then some (.noAttribute target)
    else none
  | _ => none

theorem Source.orphan?_feed (source : Source) : (source.feed pools ref).orphan? =
    (source.orphan? pools).map (Shortfall.issue ref) := by
  cases source with
  | parent target removed =>
    cases h : pools.available? target <;> cases removed <;> simp [feed, h, orphan?, Feed.orphan?]
  | earlier place => cases place <;> rfl
  | shared target type =>
    cases h : pools.available? target with
    | none => simp [feed, h, orphan?, Feed.orphan?]
    | some p => by_cases ht : target.table = ref.table <;> simp [feed, h, ht, orphan?, Feed.orphan?]
  | key | random => rfl

theorem Source.fallback?_feed (source : Source) : (source.feed pools ref).fallback? =
    (source.fallback? pools ref.table).map (Shortfall.issue ref) := by
  cases source with
  | parent target removed =>
    cases h : pools.available? target <;> cases removed <;> simp [feed, h, fallback?, Feed.fallback?]
  | earlier place => cases place <;> rfl
  | shared target type =>
    cases h : pools.available? target with
    | none => simp [feed, h, fallback?, Feed.fallback?]
    | some p => by_cases ht : target.table = ref.table <;> simp [feed, h, ht, fallback?, Feed.fallback?]
  | key | random => rfl

/-- All shortfalls of a source in a table. -/
def Source.shortfalls (pools : Pools) (rows : UInt64) (table : String) (source : Source) :
    List Shortfall :=
  (source.exhaustion? rows).toList
    ++ if rows = 0 then [] else (source.orphan? pools).toList ++ (source.fallback? pools table).toList

theorem Source.shortfalls_parent {rows : UInt64} (hrows : rows ≠ 0) (name : String) :
    (Source.parent target removed).shortfalls pools rows name =
      if removed = false ∧ (pools.available? target).isSome = true then [] else [.noParent target] := by
  cases hp : pools.available? target <;> cases removed <;>
    simp [shortfalls, exhaustion?, orphan?, fallback?, hrows, hp]

theorem Source.shortfalls_shared {rows : UInt64} (hrows : rows ≠ 0) (name : String) :
    (Source.shared target type).shortfalls pools rows name =
      if target.table ≠ name ∧ (pools.available? target).isSome = true then [] else [.noAttribute target] := by
  cases hp : pools.available? target <;> by_cases hname : target.table = name <;>
    simp [shortfalls, exhaustion?, orphan?, fallback?, hrows, hp, hname]

namespace TablePlan

variable {p : TablePlan} {c : PlannedColumn} {rows : UInt64}

/-- The issues of a table with this many rows: keys that run out, then foreign
keys and attributes that find no value. A table without rows looks for none. -/
def issues (p : TablePlan) (pools : Pools) (rows : UInt64) : List Issue :=
  p.issuesOf (Source.exhaustion? rows)
    ++ if rows = 0 then []
      else p.issuesOf (Source.orphan? pools) ++ p.issuesOf (Source.fallback? pools p.name)

theorem filterMap_orphan?_feeds (p : TablePlan) (pools : Pools) :
    (p.feeds pools).filterMap Feed.orphan? = p.issuesOf (Source.orphan? pools) := by
  rw [feeds, List.filterMap_map]
  exact List.filterMap_congr fun c _ => c.source.orphan?_feed

theorem filterMap_fallback?_feeds (p : TablePlan) (pools : Pools) :
    (p.feeds pools).filterMap Feed.fallback? = p.issuesOf (Source.fallback? pools p.name) := by
  rw [feeds, List.filterMap_map]
  exact List.filterMap_congr fun c _ => c.source.fallback?_feed

theorem filter_issuesOf (hn : (p.columns.map (·.name)).Nodup) (hc : c ∈ p.columns)
    (shortfall? : Source → Option Shortfall) :
    (p.issuesOf shortfall?).filter (fun i => i.column = some c.name) =
      (shortfall? c.source).toList.map (Shortfall.issue (p.address c)) := by
  obtain ⟨before, after, hl⟩ := List.append_of_mem hc
  -- The other columns have other names, and so have their issues.
  have hother : ∀ cs : List PlannedColumn, c.name ∉ cs.map (·.name) →
      (cs.filterMap fun c => (shortfall? c.source).map (Shortfall.issue (p.address c))).filter
        (fun i => i.column = some c.name) = [] := by
    intro cs hcs
    rw [List.filter_eq_nil_iff]
    intro i hi
    obtain ⟨d, hd, hdi⟩ := List.mem_filterMap.1 hi
    obtain ⟨s, -, rfl⟩ := Option.map_eq_some_iff.1 hdi
    have hne : d.name ≠ c.name := fun he => hcs (he ▸ List.mem_map_of_mem hd)
    simpa [Shortfall.issue, Issue.warning, address] using hne
  rw [hl, List.map_append, List.map_cons, List.nodup_middle, List.nodup_cons, List.mem_append, not_or] at hn
  rw [issuesOf, hl, List.filterMap_append, List.filter_append, List.filterMap_cons, hother before hn.1.1]
  cases hs : shortfall? c.source with
  | none => simpa using hother after hn.1.2
  | some s =>
    have hcol : (Shortfall.issue (p.address c) s).column = some c.name := rfl
    simp only [Option.map_some, List.filter_cons, hcol, decide_true, if_true, hother after hn.1.2]
    rfl

/-- The issues about a column are its shortfalls. -/
theorem filter_issues (hn : (p.columns.map (·.name)).Nodup) (hc : c ∈ p.columns) :
    (p.issues pools rows).filter (fun i => i.column = some c.name) =
      (c.source.shortfalls pools rows p.name).map (Shortfall.issue (p.address c)) := by
  unfold issues Source.shortfalls
  rw [List.filter_append, List.map_append, filter_issuesOf hn hc]
  split
  · rfl
  · rw [List.filter_append, List.map_append, filter_issuesOf hn hc, filter_issuesOf hn hc]

/-- Each issue is a shortfall of a column. -/
theorem exists_of_mem_issues {i : Issue} (hi : i ∈ p.issues pools rows) :
    ∃ c ∈ p.columns, ∃ s, i = Shortfall.issue (p.address c) s := by
  have hof : ∀ f, i ∈ p.issuesOf f → ∃ c ∈ p.columns, ∃ s, i = Shortfall.issue (p.address c) s := by
    intro f hf
    obtain ⟨c, hmem, hc⟩ := List.mem_filterMap.1 hf
    obtain ⟨s, -, rfl⟩ := Option.map_eq_some_iff.1 hc
    exact ⟨c, hmem, s, rfl⟩
  unfold issues at hi
  rcases List.mem_append.1 hi with hi | hi
  · exact hof _ hi
  · split at hi
    · cases hi
    · rcases List.mem_append.1 hi with hi | hi
      · exact hof _ hi
      · exact hof _ hi

theorem table_of_mem_issues {i : Issue} (hi : i ∈ p.issues pools rows) : i.table = some p.name := by
  obtain ⟨c, -, s, rfl⟩ := exists_of_mem_issues hi
  rfl

end TablePlan
end SeedData
