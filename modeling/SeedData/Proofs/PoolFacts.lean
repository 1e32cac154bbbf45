/-
Which pools there are after a table has been filled (`values?_ingest`), and what they
hold: the values of the columns of the dataset (`Dataset.pool?`), row by row.
-/
import Mathlib.Data.List.Nodup
import SeedData.Data.Pools

namespace SeedData

variable {table : String} {column : String} {ref : ColumnRef} {pool : Array Value} {i : Nat}

/-! ## Schemas with distinct names -/

/-- The tables have different names, and so have the columns of each. -/
structure Catalog.Distinct (c : Catalog) : Prop where
  tables : c.tableNames.Nodup
  columns : ∀ t ∈ c.tables, (t.columns.map (·.name)).Nodup

namespace Catalog

variable {c : Catalog} {t : Table}

theorem mem_of_table? {name : String} (h : c.table? name = some t) : t ∈ c.tables ∧ t.name = name :=
  ⟨List.mem_of_find?_eq_some h, by simpa using List.find?_some h⟩

theorem table?_eq_some_iff (hn : c.tableNames.Nodup) {name : String} :
    c.table? name = some t ↔ t ∈ c.tables ∧ t.name = name := by
  refine ⟨mem_of_table?, fun ⟨ht, hname⟩ => ?_⟩
  obtain ⟨u, hu⟩ : ∃ u, c.table? name = some u := by
    rw [← Option.isSome_iff_exists, table?, List.find?_isSome]
    exact ⟨t, ht, by simpa using hname⟩
  obtain ⟨hmem, hu'⟩ := mem_of_table? hu
  rw [hu, List.inj_on_of_nodup_map hn hmem ht (hu'.trans hname.symm)]

theorem Distinct.table?_eq (h : c.Distinct) (ht : t ∈ c.tables) : c.table? t.name = some t :=
  (table?_eq_some_iff h.tables).2 ⟨ht, rfl⟩

theorem Distinct.column?_isSome_iff (h : c.Distinct) (ht : t ∈ c.tables) :
    (c.column? t.name column).isSome ↔ column ∈ t.columns.map (·.name) := by
  simp [column?, h.table?_eq ht, Table.column?]

theorem mem_tableNames_of_column? (h : (c.column? table column).isSome) : table ∈ c.tableNames := by
  unfold column? at h
  cases ht : c.table? table with
  | none => simp [ht] at h
  | some t =>
    obtain ⟨hmem, rfl⟩ := mem_of_table? ht
    exact List.mem_map_of_mem hmem

end Catalog

/-! ## Columns of filled tables -/

namespace DataTable

variable {t : DataTable}

/-- The values of a column, row by row. -/
def pool? (t : DataTable) (column : String) : Option (Array Value) :=
  (t.columnIndex? column).map (Pools.column t.rows)

/-- Each row has one value for each column. -/
def Rectangular (t : DataTable) : Prop := ∀ row ∈ t.rows.toList, row.length = t.columns.length

theorem pool?_isSome_iff : (t.pool? column).isSome ↔ column ∈ t.columns := by
  simp [pool?, columnIndex?]

theorem size_of_pool? (h : t.pool? column = some pool) : pool.size = t.rows.size := by
  obtain ⟨k, -, rfl⟩ := Option.map_eq_some_iff.1 h
  simp [Pools.column]

/-- In a table of full rows, the values of a column are those of its rows. -/
theorem value?_eq_of_pool? (h : t.pool? column = some pool) (ht : t.Rectangular) :
    t.value? i column = pool[i]? := by
  obtain ⟨k, hk, rfl⟩ := Option.map_eq_some_iff.1 h
  cases hrow : t.rows[i]? with
  | none => simp [value?, hk, hrow, Pools.column]
  | some row =>
    have hlen := ht row (Array.mem_toList_iff.2 (Array.mem_of_getElem? hrow))
    obtain ⟨hlt, -, -⟩ := List.idxOf?_eq_some_iff.1 hk
    have hget : row[k]? = some (row.get ⟨k, by omega⟩) := List.getElem?_eq_getElem _
    simp [value?, hk, hrow, Pools.column, hget]

end DataTable

namespace Dataset

variable {d : Dataset} {t : DataTable}

/-- The values of a column of the first table of its name, row by row. -/
def pool? (d : Dataset) (ref : ColumnRef) : Option (Array Value) :=
  (d.table? ref.table).bind (·.pool? ref.column)

theorem forall_mem_push {P : DataTable → Prop} (h : ∀ u ∈ d.tables, P u) (ht : P t) :
    ∀ u ∈ (d.push t).tables, P u := by
  intro u hu
  rcases List.mem_append.1 hu with hu | hu
  · exact h u hu
  · rwa [List.mem_singleton.1 hu]

theorem table?_push (d : Dataset) (t : DataTable) (name : String) :
    (d.push t).table? name = (d.table? name).or (if t.name = name then some t else none) := by
  simp only [table?, push, List.find?_append, List.find?_singleton, decide_eq_true_eq]

theorem table?_push_of_some {name : String} {u : DataTable} (h : d.table? name = some u) :
    (d.push t).table? name = some u := by
  rw [table?_push, h, Option.some_or]

theorem mem_of_table? {name : String} (h : d.table? name = some t) : t ∈ d.tables ∧ t.name = name :=
  ⟨List.mem_of_find?_eq_some h, by simpa using List.find?_some h⟩

theorem table?_isSome_iff {name : String} : (d.table? name).isSome ↔ name ∈ d.tableNames := by
  simp [table?, tableNames]

end Dataset

/-! ## Keeping the columns of a table -/

namespace Pools

variable {rows : Array (List Value)} {retained : SortedSet ColumnRef}

theorem get?_keep {names : List String} (hn : names.Nodup) (pools : SortedMap ColumnRef (Array Value))
    (index : Nat) : (keep table rows retained pools index names).get? ref =
      if ref.table = table ∧ retained.contains ref = true then
        ((names.idxOf? ref.column).map fun k => Pools.column rows (index + k)).or (pools.get? ref)
      else pools.get? ref := by
  induction names generalizing pools index with
  | nil => simp [keep]
  | cons name names ih =>
    rw [List.nodup_cons] at hn
    rw [keep, ih hn.2, List.idxOf?_cons]
    have hother : ¬ (ref = ⟨table, name⟩ ∧ retained.contains ref = true) →
        (if retained.contains ⟨table, name⟩ = true then
          pools.insert ⟨table, name⟩ (Pools.column rows index) else pools).get? ref = pools.get? ref := by
      intro hno
      split
      · rename_i hkeep
        exact SortedMap.get?_insert_other pools _ fun h => hno ⟨h, h ▸ hkeep⟩
      · rfl
    by_cases hr : ref.table = table ∧ retained.contains ref = true
    · obtain ⟨rfl, hkeep⟩ := hr
      by_cases hname : name = ref.column
      · subst hname
        have hnone : names.idxOf? ref.column = none := List.idxOf?_eq_none_iff.2 hn.1
        simp [hnone, hkeep]
      · rw [hother fun h => hname (h.1 ▸ rfl)]
        simp [hkeep, hname, Nat.add_assoc, Nat.add_comm 1, Function.comp_def]
    · rw [hother fun h => hr ⟨h.1 ▸ rfl, h.2⟩, if_neg hr, if_neg hr]

/-- Filling a table puts its retained columns over what pools they had. -/
theorem values?_ingest (p : Pools) (t : DataTable) (hn : t.columns.Nodup) :
    (p.ingest t retained).values? ref =
      if ref.table = t.name ∧ retained.contains ref = true then
        (t.pool? ref.column).or (p.values? ref)
      else p.values? ref := by
  rw [values?, ingest, get?_keep hn]
  simp [DataTable.pool?, DataTable.columnIndex?, values?]

end Pools
end SeedData
