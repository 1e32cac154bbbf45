/-
The issues of a run. A column has at most one issue of each kind, and the kinds have codes of their
own, so no issue of a table comes twice (`TablePlan.nodup_issues`), and the counts by code follow
the list (`Report.Counted`). Both are kept from table to table (`Run.Noted.add`), so the issue list
of a finished run is exact (`issues_are_exact`).
-/
import SeedData.Proofs.RunHistory

namespace SeedData

variable {catalog : Catalog} {keys : ForeignKeys} {attributes : List Reference} {options : Options}
  {job : Job} {run : Run} {names : List String} {table : Table} {c : Column} {pools : Pools}
  {rows : UInt64} {source : Source} {s : Shortfall} {i : Issue} {code : String}

/-- What an issue is told apart by: its code, its table and its column. -/
def Issue.topic (i : Issue) : String × Option String × Option String := (i.code, i.table, i.column)

/-! ## The issues of a table -/

namespace Source

theorem code_of_exhaustion? (h : source.exhaustion? rows = some s) : s.code = "unique_exhausted" := by
  cases source with
  | key type =>
    simp only [exhaustion?] at h
    split at h
    · split at h
      · cases h
        rfl
      · cases h
    · cases h
  | parent | earlier | shared | random => cases h

theorem code_of_orphan? (h : source.orphan? pools = some s) : s.code = "missing_parent_pool" := by
  cases source with
  | parent target removed =>
    simp only [orphan?] at h
    split at h
    · cases h
      rfl
    · cases h
  | earlier place =>
    cases place with
    | none =>
      cases h
      rfl
    | some place => cases h
  | shared | key | random => cases h

theorem code_of_fallback? {name : String} (h : source.fallback? pools name = some s) :
    s.code = "attribute_fallback" := by
  cases source with
  | shared target type =>
    simp only [fallback?] at h
    split at h
    · cases h
      rfl
    · cases h
  | parent | earlier | key | random => cases h

/-- A source is exhausted exactly if it makes keys of a type that holds fewer than the rows. -/
theorem exhaustion?_isSome_iff : (source.exhaustion? rows).isSome ↔
    ∃ type capacity, source = .key type ∧ type.capacity? = some capacity ∧ capacity < rows.toNat := by
  cases source with
  | key type =>
    cases h : type.capacity? with
    | none => simp [exhaustion?, h]
    | some capacity => by_cases hless : capacity < rows.toNat <;> simp [exhaustion?, h, hless]
  | parent | earlier | shared | random => simp [exhaustion?]

/-- Of all shortfalls of a source only that of its keys has the code of exhausted keys. -/
theorem exists_exhausted_iff (pools : Pools) (name : String) :
    (∃ s ∈ source.shortfalls pools rows name, s.code = "unique_exhausted") ↔
      (source.exhaustion? rows).isSome := by
  constructor
  · rintro ⟨s, hs, hcode⟩
    rcases List.mem_append.1 hs with hs | hs
    · exact Option.isSome_of_eq_some (Option.mem_toList.1 hs)
    · split at hs
      · cases hs
      · rcases List.mem_append.1 hs with hs | hs
        · rw [code_of_orphan? (Option.mem_toList.1 hs)] at hcode
          exact absurd hcode (by decide)
        · rw [code_of_fallback? (Option.mem_toList.1 hs)] at hcode
          exact absurd hcode (by decide)
  · intro h
    obtain ⟨s, hs⟩ := Option.isSome_iff_exists.1 h
    exact ⟨s, List.mem_append_left _ (Option.mem_toList.2 hs), code_of_exhaustion? hs⟩

end Source

namespace TablePlan

variable {p : TablePlan} {shortfall? : Source → Option Shortfall}

theorem code_of_mem_issuesOf (hcode : ∀ source s, shortfall? source = some s → s.code = code)
    (hi : i ∈ p.issuesOf shortfall?) : i.code = code := by
  obtain ⟨c, -, hc⟩ := List.mem_filterMap.1 hi
  obtain ⟨s, hs, rfl⟩ := Option.map_eq_some_iff.1 hc
  exact hcode c.source s hs

/-- A kind of shortfall gives each column at most one issue. -/
theorem nodup_issuesOf (hn : (p.columns.map (·.name)).Nodup) (shortfall? : Source → Option Shortfall) :
    ((p.issuesOf shortfall?).map Issue.topic).Nodup := by
  refine List.pairwise_map.2 (List.Pairwise.filterMap _ (fun c d hne i hi j hj htopic => ?_) (List.pairwise_map.1 hn))
  obtain ⟨s, -, rfl⟩ := Option.map_eq_some_iff.1 hi
  obtain ⟨t, -, rfl⟩ := Option.map_eq_some_iff.1 hj
  exact hne (Option.some.inj (congrArg (·.2.2) htopic))

theorem nodup_issues (hn : (p.columns.map (·.name)).Nodup) :
    ((p.issues pools rows).map Issue.topic).Nodup := by
  -- Issues of two kinds differ in their codes.
  have happend : ∀ {l l' : List Issue} {code : String}, (l.map Issue.topic).Nodup → (l'.map Issue.topic).Nodup →
      (∀ i ∈ l, i.code = code) → (∀ i ∈ l', i.code ≠ code) → ((l ++ l').map Issue.topic).Nodup := by
    intro l l' code hl hl' hcode hother
    rw [List.map_append, List.nodup_append]
    refine ⟨hl, hl', List.forall_mem_map.2 fun i hi => List.forall_mem_map.2 fun j hj htopic => ?_⟩
    exact hother j hj ((congrArg Prod.fst htopic).symm.trans (hcode i hi))
  have hexhausted : ∀ i ∈ p.issuesOf (Source.exhaustion? rows), i.code = "unique_exhausted" :=
    fun i => code_of_mem_issuesOf fun _ _ => Source.code_of_exhaustion?
  have horphans : ∀ i ∈ p.issuesOf (Source.orphan? pools), i.code = "missing_parent_pool" :=
    fun i => code_of_mem_issuesOf fun _ _ => Source.code_of_orphan?
  have hfallbacks : ∀ i ∈ p.issuesOf (Source.fallback? pools p.name), i.code = "attribute_fallback" :=
    fun i => code_of_mem_issuesOf fun _ _ => Source.code_of_fallback?
  unfold issues
  split
  · rw [List.append_nil]
    exact nodup_issuesOf hn _
  · refine happend (nodup_issuesOf hn _) (happend (nodup_issuesOf hn _) (nodup_issuesOf hn _) horphans
      fun i hi => ?_) hexhausted fun i hi => ?_
    · rw [hfallbacks i hi]
      decide
    · rcases List.mem_append.1 hi with hi | hi
      · rw [horphans i hi]
        decide
      · rw [hfallbacks i hi]
        decide

end TablePlan

/-! ## Counts -/

/-- The report counts the issues of each code, and has no count for a code without issues. -/
def Report.Counted (r : Report) : Prop :=
  ∀ code, r.issuesByCode.get? code =
    if r.issuesFor code = [] then none else some (UInt64.ofNat (r.issuesFor code).length)

namespace Report

variable {r : Report}

theorem Counted.getD (h : r.Counted) (code : String) :
    (r.issuesByCode.get? code).getD 0 = UInt64.ofNat (r.issuesFor code).length := by
  rw [h code]
  split
  · rename_i hnone
    rw [hnone]
    rfl
  · rfl

theorem Counted.record (h : r.Counted) (i : Issue) : (r.record i).Counted := by
  intro code
  have hget : (r.record i).issuesByCode.get? code =
      if code = i.code then some (UInt64.ofNat ((r.issuesFor code).length + 1)) else r.issuesByCode.get? code := by
    rw [Report.record, SortedMap.get?_insert, h.getD]
    split
    · rename_i hcode
      rw [hcode, UInt64.ofNat_add]
      rfl
    · rfl
  have hissues : (r.record i).issuesFor code = r.issuesFor code ++ if code = i.code then [i] else [] := by
    rw [issuesFor, Report.record, List.filter_append]
    by_cases hcode : code = i.code
    · simp [issuesFor, hcode]
    · simp [issuesFor, hcode, Ne.symm hcode]
  rw [hget, hissues]
  by_cases hcode : code = i.code
  · simp [hcode]
  · simp [hcode, h code]

theorem Counted.foldl_record (h : r.Counted) (issues : List Issue) : (issues.foldl Report.record r).Counted := by
  induction issues generalizing r with
  | nil => exact h
  | cons i issues ih => exact ih (h.record i)

theorem removed_foldl_record (r : Report) (issues : List Issue) :
    (issues.foldl Report.record r).removed = r.removed := by
  induction issues generalizing r with
  | nil => rfl
  | cons i issues ih => exact ih (r.record i)

end Report

/-! ## The issues of a run -/

/-- What holds of the issues of a run on its way. -/
structure Run.Noted (job : Job) (run : Run) : Prop where
  nodup : (run.report.issues.map Issue.topic).Nodup
  named : ∀ i ∈ run.report.issues, ∃ t ∈ run.dataset.tables, i.table = some t.name ∧
    ∃ column ∈ t.columns, i.column = some column
  counted : run.report.Counted
  removed : run.report.removed = job.order.removed

theorem Run.noted_start (job : Job) : job.start.Noted job where
  nodup := List.nodup_nil
  named := by simp [Job.start, Report.ofOptions]
  counted code := by simp [Job.start, Report.ofOptions, Report.issuesFor]
  removed := rfl

/-- One more table is filled, and its issues are noted. -/
theorem Run.Noted.add (h : run.Noted job) (hsound : run.Sound job names) (hnew : table.name ∉ names)
    (hn : (table.columns.map (·.name)).Nodup) {filled : DataTable} (hf : job.Fills run.pools table filled) :
    (run.addNoting job.options job.retained filled ((job.plan table).issues run.pools job.options.rows)).Noted job where
  nodup := by
    rw [issues_addNoting, List.map_append, List.nodup_append]
    refine ⟨h.nodup, TablePlan.nodup_issues ?_, List.forall_mem_map.2 fun i hi =>
      List.forall_mem_map.2 fun j hj htopic => ?_⟩
    · rwa [Job.names_plan]
    · obtain ⟨name, hname, htable⟩ := hsound.issues i hi
      have hsame : some name = some table.name := by
        rw [← htable, ← Job.plan_name job table, ← TablePlan.table_of_mem_issues hj]
        exact congrArg (·.2.1) htopic
      exact hnew (Option.some.inj hsame ▸ hname)
  named i hi := by
    rw [issues_addNoting] at hi
    rcases List.mem_append.1 hi with hi | hi
    · obtain ⟨t, ht, hnamed⟩ := h.named i hi
      exact ⟨t, List.mem_append_left _ ht, hnamed⟩
    · obtain ⟨c, hc, s, rfl⟩ := TablePlan.exists_of_mem_issues hi
      refine ⟨filled, List.mem_append_right _ List.mem_cons_self, congrArg some hf.name.symm, c.name, ?_, rfl⟩
      rw [Job.plan_columns] at hc
      obtain ⟨column, hcolumn, rfl⟩ := List.mem_map.1 hc
      exact hf.columns ▸ List.mem_map_of_mem hcolumn
  counted := h.counted.foldl_record _
  removed := (Report.removed_foldl_record _ _).trans h.removed

theorem Job.Progress.noted (h : job.Progress names run) (hd : job.catalog.Distinct) (hn : names.Nodup) :
    run.Noted job := by
  induction h with
  | start => exact Run.noted_start job
  | @fill names run name table s h ht _ ih =>
    have hnames := (List.nodup_append.1 hn).1
    obtain ⟨hmem, rfl⟩ := Catalog.mem_of_table? ht
    have hsound := h.sound hd hnames
    exact (ih hnames).add hsound (not_mem_of_nodup hn) (hd.columns table hmem)
      (Job.always_fillTable hsound.even table s)

/-- A column that is unique and refers to nothing, and whose type holds fewer keys than the rows
asked for. -/
def Catalog.RunsOut (catalog : Catalog) (keys : ForeignKeys) (attributes : List Reference) (rows : UInt64)
    (ref : ColumnRef) (c : Column) : Prop :=
  (c.isKeyLike = true ∨ c.settings.isUnique = true) ∧ keys.get? ref = none ∧
    (∀ r ∈ attributes, r.source ≠ ref) ∧
    ∃ capacity, (ColumnType.resolve catalog c.dataType).capacity? = some capacity ∧ capacity < rows.toNat

theorem exhaustion?_source_iff : (((Job.ofSchema catalog keys attributes options).source table c).exhaustion?
    rows).isSome ↔ catalog.RunsOut keys attributes rows ⟨table.name, c.name⟩ c := by
  rw [Source.exhaustion?_isSome_iff, Catalog.RunsOut, ← Bool.or_eq_true]
  constructor
  · rintro ⟨type, capacity, hsource, hcapacity, hless⟩
    obtain ⟨hkey, htarget, hunique, rfl⟩ := sourceOf_eq_key_iff.1 hsource
    exact ⟨hunique, hkey, (get?_attributeTargets_eq_none_iff hkey).1 htarget, capacity, hcapacity, hless⟩
  · rintro ⟨hunique, hkey, hfree, capacity, hcapacity, hless⟩
    refine ⟨_, capacity, sourceOf_eq_key_iff.2 ⟨hkey, ?_, hunique, rfl⟩, hcapacity, hless⟩
    exact (get?_attributeTargets_eq_none_iff hkey).2 hfree

/-- A finished run has no more issues of one code than there are columns. -/
theorem Run.Noted.length_issuesFor_le (h : run.Noted job) (hsound : run.Sound job names) (code : String) :
    (run.report.issuesFor code).length ≤ (job.catalog.tables.flatMap (·.columns)).length := by
  have hnodup : ((run.report.issuesFor code).map Issue.topic).Nodup :=
    h.nodup.sublist (List.filter_sublist.map Issue.topic)
  have hsubset : (run.report.issuesFor code).map Issue.topic ⊆
      job.catalog.tables.flatMap fun t => t.columns.map fun c => (code, some t.name, some c.name) := by
    refine List.forall_mem_map.2 fun i hi => ?_
    obtain ⟨hmem, hcode⟩ := List.mem_filter.1 hi
    obtain ⟨t, ht, htable, column, hcolumn, hcol⟩ := h.named i hmem
    obtain ⟨table, htable', hname, hcolumns⟩ := hsound.filled t ht
    rw [hcolumns] at hcolumn
    obtain ⟨c, hc, rfl⟩ := List.mem_map.1 hcolumn
    refine List.mem_flatMap.2 ⟨table, htable', List.mem_map.2 ⟨c, hc, ?_⟩⟩
    rw [Issue.topic, of_decide_eq_true hcode, htable, hcol, hname]
  have hle := (hnodup.subperm hsubset).length_le
  rw [List.length_map] at hle
  simpa [List.length_flatMap] using hle

/-- **The issue list of a run is exact.** No issue comes twice, and each is about a column of a
table of the dataset. A code without issues has no count, and any other the number of its issues,
which are no more than there are columns. Keys are said to run out of exactly those columns whose
keys do, and the edges that were given up are those of the order. -/
theorem issues_are_exact (hd : catalog.Distinct)
    (hrun : (Job.ofSchema catalog keys attributes options).generate.1 = .ok run) :
    (run.report.issues.map Issue.topic).Nodup ∧
    (∀ i ∈ run.report.issues, ∃ t ∈ run.dataset.tables, i.table = some t.name ∧
      ∃ column ∈ t.columns, i.column = some column) ∧
    (∀ code, run.report.issuesByCode.get? code = if run.report.issuesFor code = [] then none
      else some (UInt64.ofNat (run.report.issuesFor code).length)) ∧
    (∀ code, (run.report.issuesFor code).length ≤ (catalog.tables.flatMap (·.columns)).length) ∧
    (∀ table ∈ catalog.tables, ∀ c ∈ table.columns,
      (∃ i ∈ run.report.issues, i.topic = ("unique_exhausted", some table.name, some c.name)) ↔
        catalog.RunsOut keys attributes options.rows ⟨table.name, c.name⟩ c) ∧
    run.report.removed = (orderTables catalog keys attributes).removed := by
  have hprogress := Job.progress_of_generate hrun
  have hsound := hprogress.sound hd nodup_tables
  have hnoted := hprogress.noted hd nodup_tables
  refine ⟨hnoted.nodup, hnoted.named, hnoted.counted, hnoted.length_issuesFor_le hsound,
    fun table ht c hc => ?_, hnoted.removed⟩
  obtain ⟨earlier, before, filled, hfill, -⟩ := exists_filling hd hrun ht
  have habout := hfill.about hd ht hc
  have hmem : ∀ i, i ∈ run.report.about ⟨table.name, c.name⟩ ↔
      i ∈ run.report.issues ∧ i.table = some table.name ∧ i.column = some c.name := by
    simp [Report.about]
  rw [← exhaustion?_source_iff, ← Source.exists_exhausted_iff before.pools table.name]
  constructor
  · rintro ⟨i, hi, htopic⟩
    obtain ⟨hcode, htable, hcolumn⟩ : i.code = _ ∧ i.table = _ ∧ i.column = _ := by
      simpa [Issue.topic] using htopic
    have hi := (hmem i).2 ⟨hi, htable, hcolumn⟩
    rw [habout] at hi
    obtain ⟨s, hs, rfl⟩ := List.mem_map.1 hi
    exact ⟨s, hs, hcode⟩
  · rintro ⟨s, hs, hcode⟩
    have hi : s.issue ⟨table.name, c.name⟩ ∈ run.report.about ⟨table.name, c.name⟩ :=
      habout ▸ List.mem_map_of_mem hs
    obtain ⟨hi, htable, hcolumn⟩ := (hmem _).1 hi
    refine ⟨_, hi, ?_⟩
    rw [Issue.topic, htable, hcolumn, ← hcode]
    rfl

/-- Lamps that are told apart by whether they are on, and by a number. -/
def lamps : Catalog where
  tables := [⟨"lamps", [⟨"on", "boolean", ⟨[.unique]⟩⟩, ⟨"number", "int", ⟨[.unique]⟩⟩]⟩]
  enums := []

/-- Three rows of each table. -/
def threeRows : Options := { Options.default with rows := 3 }

theorem lamps_run_out_of_keys : lamps.Distinct ∧
    ∃ run, (Job.ofSchema lamps SortedMap.empty [] threeRows).generate.1 = .ok run ∧
      (run.report.issues.map Issue.topic).Nodup ∧
      (∃ i ∈ run.report.issues, i.topic = ("unique_exhausted", some "lamps", some "on")) ∧
      (¬ ∃ i ∈ run.report.issues, i.topic = ("unique_exhausted", some "lamps", some "number")) ∧
      run.report.issuesByCode.get? "unique_exhausted" =
        some (UInt64.ofNat (run.report.issuesFor "unique_exhausted").length) := by
  have hd : lamps.Distinct := ⟨by decide, by decide⟩
  have horder : orderTables lamps SortedMap.empty [] = ⟨⟨1, 0⟩, ["lamps"], [], [], []⟩ := by cbv
  obtain ⟨run, hrun⟩ : ∃ run, (Job.ofSchema lamps SortedMap.empty [] threeRows).generate.1 = .ok run := by
    refine exists_run_of_isOk ?_
    rw [Job.ofSchema, horder]
    decide +kernel
  obtain ⟨hnodup, -, hcounts, -, hexhausted, -⟩ := issues_are_exact hd hrun
  have hlamps := hexhausted _ List.mem_cons_self
  have hon := (hlamps _ List.mem_cons_self).2 ⟨by decide, rfl, by simp, 2, by decide +kernel, by decide⟩
  refine ⟨hd, run, hrun, hnodup, hon, fun hnumber => ?_, ?_⟩
  · obtain ⟨-, -, -, capacity, hcapacity, -⟩ := (hlamps _ (List.mem_cons_of_mem _ List.mem_cons_self)).1 hnumber
    have hnone : (ColumnType.resolve lamps "int").capacity? = none := by decide +kernel
    exact absurd (hcapacity.symm.trans hnone) (by simp)
  · obtain ⟨i, hi, htopic⟩ := hon
    have hcode : i.code = "unique_exhausted" := congrArg Prod.fst htopic
    have hne : run.report.issuesFor "unique_exhausted" ≠ [] :=
      List.ne_nil_of_mem (List.mem_filter.2 ⟨hi, by simp [hcode]⟩)
    rw [hcounts, if_neg hne]

end SeedData
