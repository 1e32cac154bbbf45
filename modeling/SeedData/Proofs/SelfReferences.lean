/-
References within a table point backwards: a column that refers to its own table holds in each
row nothing, or the value of the column it refers to in an earlier row
(`self_references_point_backwards`). Which of the two is left to chance, but for the rates zero
and one.
-/
import SeedData.Proofs.RunHistory

namespace SeedData

variable {catalog : Catalog} {keys : ForeignKeys} {attributes : List Reference} {options : Options}
  {run : Run} {table : Table} {c : Column} {target : String} {r : Nat}

/-! ## Earlier rows -/

/-- A value in one of the first rows of a table is the value of its column there. -/
theorem DataTable.exists_value?_of_mem_take {t : DataTable} (ht : t.Rectangular) {place : Nat}
    {row : List Value} (hplace : t.columnIndex? target = some place) (hrow : row ∈ t.rows.toList.take r) :
    ∃ j < r, t.value? j target = some (row.getD place .null) := by
  obtain ⟨j, hj⟩ := List.mem_iff_getElem?.1 hrow
  rw [List.getElem?_take] at hj
  split at hj
  · rename_i hlt
    have hfound : t.rows[j]? = some row := by simpa using hj
    have hlen := ht row (List.mem_of_getElem? hj)
    obtain ⟨hwidth, -, -⟩ := List.idxOf?_eq_some_iff.1 hplace
    have hget : row[place]? = some (row.get ⟨place, by omega⟩) := List.getElem?_eq_getElem _
    exact ⟨j, hlt, by simp [value?, hplace, hfound, hget]⟩
  · cases hj

/-- A column that takes its values from earlier rows. -/
theorem Job.Fills.earlier_cell {job : Job} {pools : Pools} {filled : DataTable}
    (h : job.Fills pools table filled) (hn : (table.columns.map (·.name)).Nodup) (hc : c ∈ table.columns)
    {place : Nat} (hsource : job.source table c = .earlier (some place))
    (hplace : filled.columnIndex? target = some place) (hr : r < filled.rows.size) :
    ∃ v, filled.value? r c.name = some v ∧
      ((v = .null ∧ (r = 0 ∨ (job.options.nullRate == 0.0) = false)) ∨
        ((job.options.nullRate == 1.0) = false ∧ ∃ j < r, filled.value? j target = some v)) := by
  obtain ⟨chosen, v, hv, hgives⟩ := h.cell_after hn hc hr
  rw [hsource] at hgives
  obtain ⟨s, rfl⟩ := hgives
  refine ⟨_, hv, ?_⟩
  rcases always_earlierValue job.options.nullRate place s with ⟨hnull, hwhy⟩ | ⟨hrate, row, hrow, hvalue⟩
  · refine .inl ⟨hnull, hwhy.imp_left fun hnone => ?_⟩
    have hlen : (filled.rows.toList.take r).length = r := by simp; omega
    exact hlen.symm.trans (congrArg List.length hnone)
  · rw [hvalue]
    exact .inr ⟨hrate, DataTable.exists_value?_of_mem_take h.rectangular hplace hrow⟩

/-! ## Columns that refer to their own table -/

theorem source_of_own_key (hkey : keys.get? ⟨table.name, c.name⟩ = some ⟨table.name, target⟩) :
    (Job.ofSchema catalog keys attributes options).source table c =
      .earlier ((table.columns.map (·.name)).idxOf? target) := by
  simp [Job.source, Job.ofSchema, sourceOf, hkey]

theorem Source.shortfalls_earlier_none (pools : Pools) (rows : UInt64) (name : String) :
    (Source.earlier none).shortfalls pools rows name = if rows = 0 then [] else [.noColumn] := by
  simp [shortfalls, exhaustion?, orphan?, fallback?]

/-- **A foreign key to a column of the same table points backwards**: in the first row it is
empty, and in any other it is empty or holds the value that the column it refers to has in an
earlier row. It is always empty at the rate one and, past the first row, never at the rate zero.
If the table has no such column, the foreign key is empty, and one issue says so unless there are
no rows. -/
theorem self_references_point_backwards (hd : catalog.Distinct)
    (hrun : (Job.ofSchema catalog keys attributes options).generate.1 = .ok run)
    (ht : table ∈ catalog.tables) (hc : c ∈ table.columns)
    (hkey : keys.get? ⟨table.name, c.name⟩ = some ⟨table.name, target⟩) :
    ∃ filled, run.dataset.table? table.name = some filled ∧ filled.rows.size = options.rows.toNat ∧
      (target ∈ table.columns.map (·.name) →
        (0 < filled.rows.size → filled.value? 0 c.name = some .null) ∧
        (∀ r < filled.rows.size, ∃ v, filled.value? r c.name = some v ∧
          (v = .null ∨ ∃ j < r, filled.value? j target = some v)) ∧
        ((options.nullRate == 1.0) = true → ∀ r < filled.rows.size, filled.value? r c.name = some .null) ∧
        ((options.nullRate == 0.0) = true → ∀ r < filled.rows.size, 0 < r →
          ∃ v, filled.value? r c.name = some v ∧ ∃ j < r, filled.value? j target = some v)) ∧
      (target ∉ table.columns.map (·.name) →
        (∀ r < filled.rows.size, filled.value? r c.name = some .null) ∧
        (run.report.about ⟨table.name, c.name⟩).countP (·.code = "missing_parent_pool") =
          if options.rows = 0 then 0 else 1) := by
  obtain ⟨earlier, before, filled, hfill, -⟩ := exists_filling hd hrun ht
  have hn := hd.columns table ht
  have hsource : (Job.ofSchema catalog keys attributes options).source table c = _ := source_of_own_key hkey
  have habout := hfill.about hd ht hc
  refine ⟨filled, hfill.found, hfill.fills.size, fun hmem => ?_, fun hno => ?_⟩
  · obtain ⟨place, hplace⟩ : ∃ place, (table.columns.map (·.name)).idxOf? target = some place := by
      rw [← Option.isSome_iff_exists]
      simpa using hmem
    have hindex : filled.columnIndex? target = some place := by
      rw [DataTable.columnIndex?, hfill.fills.columns, hplace]
    rw [hplace] at hsource
    have hcell := fun r (hr : r < filled.rows.size) => hfill.fills.earlier_cell hn hc hsource hindex hr
    rw [Job.options_ofSchema] at hcell
    refine ⟨fun h0 => ?_, fun r hr => ?_, fun hone r hr => ?_, fun hzero r hr hpos => ?_⟩
    · obtain ⟨v, hv, ⟨rfl, -⟩ | ⟨-, j, hj, -⟩⟩ := hcell 0 h0
      · exact hv
      · exact absurd hj (Nat.not_lt_zero j)
    · obtain ⟨v, hv, ⟨hnull, -⟩ | ⟨-, hback⟩⟩ := hcell r hr
      · exact ⟨v, hv, .inl hnull⟩
      · exact ⟨v, hv, .inr hback⟩
    · obtain ⟨v, hv, ⟨rfl, -⟩ | ⟨hrate, -⟩⟩ := hcell r hr
      · exact hv
      · rw [hone] at hrate
        cases hrate
    · obtain ⟨v, hv, ⟨-, rfl | hrate⟩ | ⟨-, hback⟩⟩ := hcell r hr
      · exact absurd hpos (Nat.lt_irrefl 0)
      · rw [hzero] at hrate
        cases hrate
      · exact ⟨v, hv, hback⟩
  · have hnone : (table.columns.map (·.name)).idxOf? target = none := List.idxOf?_eq_none_iff.2 hno
    rw [hnone] at hsource
    rw [hsource, Job.options_ofSchema, Source.shortfalls_earlier_none] at habout
    refine ⟨fun r hr => ?_, ?_⟩
    · obtain ⟨chosen, v, hv, hgives⟩ := hfill.fills.cell_after hn hc hr
      rw [hsource] at hgives
      rw [hv, show v = .null from hgives]
    · rw [habout]
      split <;> rfl

/-! ## Comments that answer comments -/

/-- Comments, each of which may answer another. -/
def thread : Catalog := ⟨[⟨"comments", [⟨"id", "int", ⟨[]⟩⟩, ⟨"answers", "int", ⟨[]⟩⟩]⟩], []⟩

/-- The foreign key of `thread`. -/
def threadKeys : ForeignKeys := SortedMap.empty.insert ⟨"comments", "answers"⟩ ⟨"comments", "id"⟩

/-- Three rows, in which no reference stays empty by chance. -/
def threeLinkedRows : Options := { Options.default with rows := 3, nullRate := 0.0 }

theorem thread_completes :
    ∃ run, (Job.ofSchema thread threadKeys [] threeLinkedRows).generate.1 = .ok run := by
  refine exists_run_of_isOk ?_
  have horder : orderTables thread threadKeys [] =
      ⟨⟨1, 0⟩, ["comments"], [], [⟨"comments", "answers"⟩], []⟩ := by cbv
  rw [Job.ofSchema, horder]
  decide +kernel

theorem comments_answer_earlier_comments :
    ∃ run, (Job.ofSchema thread threadKeys [] threeLinkedRows).generate.1 = .ok run ∧
      ∃ comments, run.dataset.table? "comments" = some comments ∧ comments.rows.size = 3 ∧
        comments.value? 0 "answers" = some .null ∧
        ∀ r < 3, 0 < r → ∃ v, comments.value? r "answers" = some v ∧
          ∃ j < r, comments.value? j "id" = some v := by
  obtain ⟨run, hrun⟩ := thread_completes
  have hkey : threadKeys.get? ⟨"comments", "answers"⟩ = some ⟨"comments", "id"⟩ := by decide
  obtain ⟨comments, hfound, hsize, hback, -⟩ := self_references_point_backwards
    ⟨by decide, by decide⟩ hrun (List.mem_cons_self : _ ∈ thread.tables)
    (List.mem_cons_of_mem _ List.mem_cons_self) hkey
  obtain ⟨hfirst, -, -, hlinked⟩ := hback (by decide)
  have hthree : comments.rows.size = 3 := hsize
  rw [hthree] at hfirst hlinked
  exact ⟨run, hrun, comments, hfound, hthree, hfirst (by decide), hlinked (by decide +kernel)⟩

end SeedData
