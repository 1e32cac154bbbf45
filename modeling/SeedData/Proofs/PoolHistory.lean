/-
Pools after any history of filled tables. A pool holds the values of the last intake that kept its
column, row by row; the number of rows of a table is that of its last intake. The two are the same
intake, whatever the rows, exactly if no table's last intake forgets a column that an earlier one
kept (`pools_hold_what_was_kept_last`).
-/
import Mathlib.Data.List.Permutation
import SeedData.Data.Pools

namespace SeedData

variable {ref : ColumnRef} {name : String} {pool : Array Value}

/-- What a table is filled for: its name, its columns, and the columns of all tables whose values
are kept. -/
structure Heading where
  table : String
  columns : List String
  retained : SortedSet ColumnRef

/-- A table that is filled, with its rows. -/
structure Intake where
  heading : Heading
  rows : Array (List Value)

/-- The values of the column are kept. -/
def Heading.Keeps (h : Heading) (ref : ColumnRef) : Prop :=
  ref.table = h.table ∧ ref.column ∈ h.columns ∧ h.retained.contains ref = true

namespace Intake

def table (i : Intake) : DataTable := ⟨i.heading.table, i.heading.columns, i.rows⟩

/-- The pool has the values of the rows at a place of the column, row by row. -/
def Gives (i : Intake) (ref : ColumnRef) (pool : Array Value) : Prop :=
  ∃ place, i.heading.columns[place]? = some ref.column ∧ pool = i.rows.map fun row => row.getD place .null

theorem Gives.size {i : Intake} (h : i.Gives ref pool) : pool.size = i.rows.size := by
  obtain ⟨place, -, rfl⟩ := h
  exact Array.size_map ..

end Intake

namespace Pools

variable {table : String} {rows : Array (List Value)} {retained : SortedSet ColumnRef}

/-! ## One intake -/

theorem get?_keep_other {names : List String}
    (h : ¬ (ref.table = table ∧ ref.column ∈ names ∧ retained.contains ref = true))
    (pools : SortedMap ColumnRef (Array Value)) (index : Nat) :
    (keep table rows retained pools index names).get? ref = pools.get? ref := by
  induction names generalizing pools index with
  | nil => rfl
  | cons name names ih =>
    rw [keep, ih fun hkeeps => h ⟨hkeeps.1, List.mem_cons_of_mem name hkeeps.2.1, hkeeps.2.2⟩]
    split
    · rename_i hkeep
      refine SortedMap.get?_insert_other pools _ fun he => h ?_
      subst he
      exact ⟨rfl, List.mem_cons_self, hkeep⟩
    · rfl

/-- A column that is kept holds the values at a place of its name; if the name comes more than
once, at the last. -/
theorem get?_keep_kept (rows : Array (List Value)) {names : List String} (hname : ref.table = table) (hmem : ref.column ∈ names)
    (hkeep : retained.contains ref = true) (pools : SortedMap ColumnRef (Array Value)) (index : Nat) :
    ∃ place, names[place]? = some ref.column ∧
      (keep table rows retained pools index names).get? ref = some (column rows (index + place)) := by
  subst hname
  induction names generalizing pools index with
  | nil => cases hmem
  | cons name names ih =>
    rw [keep]
    by_cases hlater : ref.column ∈ names
    · obtain ⟨place, hplace, hget⟩ := ih hlater _ (index + 1)
      refine ⟨place + 1, hplace, hget.trans ?_⟩
      rw [Nat.add_right_comm, Nat.add_assoc]
    · obtain rfl : ref.column = name := (List.mem_cons.1 hmem).resolve_right hlater
      refine ⟨0, rfl, ?_⟩
      rw [get?_keep_other fun h => hlater h.2.1, if_pos hkeep, SortedMap.get?_insert_self]
      rfl

/-- The pools after tables have been filled one after another. -/
def ofIntakes (history : List Intake) : Pools :=
  history.foldl (fun p i => p.ingest i.table i.heading.retained) empty

theorem ofIntakes_concat (history : List Intake) (i : Intake) :
    ofIntakes (history ++ [i]) = (ofIntakes history).ingest i.table i.heading.retained := by
  rw [ofIntakes, List.foldl_append]
  rfl

variable {history : List Intake} {i : Intake}

theorem values?_concat_of_keeps (h : i.heading.Keeps ref) (history : List Intake) :
    ∃ pool, (ofIntakes (history ++ [i])).values? ref = some pool ∧ i.Gives ref pool := by
  rw [ofIntakes_concat]
  obtain ⟨place, hplace, hget⟩ :=
    get?_keep_kept i.rows h.1 h.2.1 h.2.2 (ofIntakes history).columns 0
  refine ⟨_, hget, place, hplace, ?_⟩
  rw [Nat.zero_add]
  rfl

theorem values?_concat_of_not_keeps (h : ¬ i.heading.Keeps ref) (history : List Intake) :
    (ofIntakes (history ++ [i])).values? ref = (ofIntakes history).values? ref := by
  rw [ofIntakes_concat]
  exact get?_keep_other h _ _

theorem rowCount?_concat (history : List Intake) (i : Intake) (name : String) :
    (ofIntakes (history ++ [i])).rowCount? name =
      if name = i.heading.table then some i.rows.size else (ofIntakes history).rowCount? name := by
  rw [ofIntakes_concat]
  exact SortedMap.get?_insert _ _ _ _

/-! ## Histories -/

/-- A pool holds the values of the last intake that kept its column. -/
theorem exists_keeping (h : (ofIntakes history).values? ref = some pool) :
    ∃ earlier i later, history = earlier ++ i :: later ∧ i.heading.Keeps ref ∧ i.Gives ref pool ∧
      ∀ j ∈ later, ¬ j.heading.Keeps ref := by
  induction history using List.reverseRecOn with
  | nil => cases h
  | append_singleton history last ih =>
    by_cases hkeeps : last.heading.Keeps ref
    · obtain ⟨pool', hget, hgives⟩ := values?_concat_of_keeps hkeeps history
      obtain rfl : pool' = pool := Option.some.inj (hget.symm.trans h)
      exact ⟨history, last, [], rfl, hkeeps, hgives, by simp⟩
    · rw [values?_concat_of_not_keeps hkeeps] at h
      obtain ⟨earlier, i, later, rfl, hi, hgives, hlater⟩ := ih h
      refine ⟨earlier, i, later ++ [last], by simp, hi, hgives, ?_⟩
      exact List.forall_mem_append.2 ⟨hlater, by simpa using hkeeps⟩

/-- A column that an intake kept has a pool ever after. -/
theorem values?_isSome_of_mem (hi : i ∈ history) (hkeeps : i.heading.Keeps ref) :
    ((ofIntakes history).values? ref).isSome := by
  induction history using List.reverseRecOn with
  | nil => cases hi
  | append_singleton history last ih =>
    by_cases hlast : last.heading.Keeps ref
    · obtain ⟨pool, hget, -⟩ := values?_concat_of_keeps hlast history
      exact Option.isSome_of_eq_some hget
    · rw [values?_concat_of_not_keeps hlast]
      rcases List.mem_append.1 hi with hi | hi
      · exact ih hi
      · exact absurd (List.mem_singleton.1 hi ▸ hkeeps) hlast

/-- The intake is the last of the table. -/
def LastOf (history : List Intake) (name : String) (i : Intake) : Prop :=
  ∃ earlier later, history = earlier ++ i :: later ∧ i.heading.table = name ∧
    ∀ j ∈ later, j.heading.table ≠ name

/-- The number of rows of a table is that of its last intake. -/
theorem rowCount?_of_lastOf (h : LastOf history name i) :
    (ofIntakes history).rowCount? name = some i.rows.size := by
  obtain ⟨earlier, later, rfl, rfl, hlater⟩ := h
  induction later using List.reverseRecOn with
  | nil => rw [rowCount?_concat, if_pos rfl]
  | append_singleton later last ih =>
    obtain ⟨hlater, hlast⟩ := List.forall_mem_append.1 hlater
    rw [← List.cons_append, ← List.append_assoc, rowCount?_concat,
      if_neg (Ne.symm (hlast last List.mem_cons_self)), ih hlater]

/-- A table that has been filled has a last intake. -/
theorem exists_lastOf (hi : i ∈ history) (hname : i.heading.table = name) : ∃ j, LastOf history name j := by
  induction history using List.reverseRecOn with
  | nil => cases hi
  | append_singleton history last ih =>
    by_cases hlast : last.heading.table = name
    · exact ⟨last, history, [], rfl, hlast, by simp⟩
    · rcases List.mem_append.1 hi with hi | hi
      · obtain ⟨j, earlier, later, rfl, hj, hlater⟩ := ih hi
        refine ⟨j, earlier, later ++ [last], by simp, hj, ?_⟩
        exact List.forall_mem_append.2 ⟨hlater, by simpa using hlast⟩
      · exact absurd (List.mem_singleton.1 hi ▸ hname) hlast

/-! ## Alignment -/

/-- Each pool has as many values as its table has rows, and these are values of the rows that the
table was last filled with. -/
def Aligned (history : List Intake) : Prop :=
  ∀ ref pool, (ofIntakes history).values? ref = some pool →
    (ofIntakes history).rowCount? ref.table = some pool.size ∧
      ∃ i, LastOf history ref.table i ∧ i.Gives ref pool

/-- The last intake of each table keeps what earlier ones kept. -/
def Steady (headings : List Heading) : Prop :=
  ∀ earlier h later, headings = earlier ++ h :: later → (∀ m ∈ later, m.table ≠ h.table) →
    ∀ m ∈ earlier, ∀ ref, m.Keeps ref → ref.table = h.table → h.Keeps ref

theorem aligned_of_steady (h : Steady (history.map (·.heading))) : Aligned history := by
  intro ref pool hpool
  obtain ⟨earlier, i, later, rfl, hi, hgives, hlater⟩ := exists_keeping hpool
  have hlast : LastOf (earlier ++ i :: later) ref.table i := by
    refine ⟨earlier, later, rfl, hi.1.symm, fun j hj hname => ?_⟩
    -- Otherwise the last intake of the table came later, and forgot the column.
    obtain ⟨last, before, after, rfl, hlast, hafter⟩ := exists_lastOf hj hname
    refine hlater last (by simp) (h (earlier.map (·.heading) ++ i.heading :: before.map (·.heading)) last.heading
      (after.map (·.heading)) (by simp) ?_ i.heading (by simp) ref hi hlast.symm)
    rw [hlast]
    exact List.forall_mem_map.2 hafter
  exact ⟨hgives.size ▸ rowCount?_of_lastOf hlast, i, hlast, hgives⟩

/-- The intake of a table without rows. -/
def withoutRows (h : Heading) : Intake := ⟨h, #[]⟩

/-- Where the last intake of a table forgets a column, its pool need not have as many values as the
table has rows. -/
theorem steady_of_aligned {headings : List Heading}
    (h : ∀ history, history.map Intake.heading = headings → Aligned history) : Steady headings := by
  rintro earlier last later rfl hlater m hm ref hkeeps hname
  by_contra hforgets
  -- A history in which only the last intake of the table has a row.
  let history := earlier.map withoutRows ++ ⟨last, #[[]]⟩ :: later.map withoutRows
  have hempty : ∀ i ∈ history, i.heading.Keeps ref → i.rows.size = 0 := by
    refine List.forall_mem_append.2 ⟨List.forall_mem_map.2 fun _ _ _ => rfl, List.forall_mem_cons.2
      ⟨fun hlast => absurd hlast hforgets, List.forall_mem_map.2 fun _ _ _ => rfl⟩⟩
  have hlast : LastOf history ref.table ⟨last, #[[]]⟩ := by
    refine ⟨_, _, rfl, hname.symm, ?_⟩
    rw [hname]
    exact List.forall_mem_map.2 hlater
  have hmem : withoutRows m ∈ history := List.mem_append_left _ (List.mem_map_of_mem hm)
  obtain ⟨pool, hpool⟩ := Option.isSome_iff_exists.1 (values?_isSome_of_mem hmem hkeeps)
  obtain ⟨before, i, after, hl, hi, hgives, -⟩ := exists_keeping hpool
  have hsize : pool.size = 0 := hgives.size.trans (hempty i (by rw [hl]; simp) hi)
  obtain ⟨hcount, -⟩ := h history (by simp [history, withoutRows, Function.comp_def]) ref pool hpool
  rw [rowCount?_of_lastOf hlast, hsize] at hcount
  exact absurd (Option.some.inj hcount) Nat.one_ne_zero

/-- **Pools are aligned, whatever the rows, exactly if no table's last intake forgets a column that
an earlier one kept.** In any case a pool holds the values of the rows of the last intake that kept
its column, and the number of rows of a table is that of its last intake. -/
theorem pools_hold_what_was_kept_last (history : List Intake) :
    ((∀ others, others.map Intake.heading = history.map Intake.heading → Aligned others) ↔
      Steady (history.map Intake.heading)) ∧
    (∀ ref pool, (ofIntakes history).values? ref = some pool → ∃ earlier i later,
      history = earlier ++ i :: later ∧ i.heading.Keeps ref ∧ i.Gives ref pool ∧
        ∀ j ∈ later, ¬ j.heading.Keeps ref) ∧
    ∀ name i, LastOf history name i → (ofIntakes history).rowCount? name = some i.rows.size := by
  refine ⟨⟨steady_of_aligned, fun hsteady others hothers => ?_⟩, fun ref pool => exists_keeping,
    fun name i => rowCount?_of_lastOf⟩
  rw [← hothers] at hsteady
  exact aligned_of_steady hsteady

/-- A table that is taken in again without one of its columns. -/
def columnDropped : List Intake :=
  [⟨⟨"users", ["id", "name"], SortedSet.ofList [⟨"users", "id"⟩, ⟨"users", "name"⟩]⟩,
      #[[.int 1, .text "Ada"], [.int 2, .text "Bo"]]⟩,
    ⟨⟨"users", ["id"], SortedSet.ofList [⟨"users", "id"⟩, ⟨"users", "name"⟩]⟩, #[[.int 3]]⟩]

/-- The column that is no longer there still has its pool, with more values than there are rows. -/
theorem dropped_column_keeps_its_pool :
    (ofIntakes columnDropped).values? ⟨"users", "name"⟩ = some #[.text "Ada", .text "Bo"] ∧
      (ofIntakes columnDropped).rowCount? "users" = some 1 ∧ ¬ Aligned columnDropped := by
  have hpool : (ofIntakes columnDropped).values? ⟨"users", "name"⟩ = some #[.text "Ada", .text "Bo"] := by cbv
  have hcount : (ofIntakes columnDropped).rowCount? "users" = some 1 := by cbv
  refine ⟨hpool, hcount, fun haligned => ?_⟩
  obtain ⟨hsize, -⟩ := haligned _ _ hpool
  exact absurd (hcount.symm.trans hsize) (by decide)

end Pools
end SeedData
