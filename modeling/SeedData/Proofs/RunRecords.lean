/-
A run tells of its tables three times: in the dataset, in the pools of the columns that are kept,
and in the report. The three grow side by side (`Run.Recorded`), and at the end they agree
(`dataset_pools_and_report_agree`).
-/
import SeedData.Proofs.RunHistory

namespace SeedData

variable {catalog : Catalog} {keys : ForeignKeys} {attributes : List Reference} {options : Options}
  {job : Job} {run : Run} {names : List String} {ref : ColumnRef}

/-! ## Kept columns -/

/-- The schema has the column and its values are kept: it identifies rows, or a foreign key or a
reference to an attribute leads to it. -/
def Catalog.Keeps (catalog : Catalog) (keys : ForeignKeys) (attributes : List Reference)
    (ref : ColumnRef) : Prop :=
  ∃ table ∈ catalog.tables, table.name = ref.table ∧ ∃ c ∈ table.columns, c.name = ref.column ∧
    (c.isKeyLike = true ∨ (∃ source, keys.get? source = some ref) ∨ ∃ r ∈ attributes, r.target = ref)

theorem contains_retainedColumns_iff :
    (retainedColumns catalog keys attributes).contains ref = true ↔
      (∃ table ∈ catalog.tables, ∃ c ∈ table.columns, c.isKeyLike = true ∧ ⟨table.name, c.name⟩ = ref) ∨
        (∃ source, keys.get? source = some ref) ∨ ∃ r ∈ attributes, r.target = ref := by
  rw [SortedSet.contains_iff, retainedColumns, SortedSet.mem_toList_ofList, List.mem_append,
    List.mem_append, or_assoc]
  refine or_congr ?_ (or_congr ?_ List.mem_map)
  · simp only [List.mem_flatMap, List.mem_map, List.mem_filter, and_assoc]
  · simp only [List.mem_map, Prod.exists, exists_eq_right, SortedMap.get?_eq_some_iff]

/-- The kept columns are the retained ones that the schema has. -/
theorem Catalog.Distinct.keeps_iff (hd : catalog.Distinct) : catalog.Keeps keys attributes ref ↔
    (retainedColumns catalog keys attributes).contains ref = true ∧
      (catalog.column? ref.table ref.column).isSome := by
  rw [contains_retainedColumns_iff]
  constructor
  · rintro ⟨table, ht, hname, c, hc, hcolumn, hwhy⟩
    rw [← hname, hd.column?_isSome_iff ht, ← hcolumn]
    refine ⟨hwhy.imp_left fun hkey => ⟨table, ht, c, hc, hkey, ?_⟩, List.mem_map_of_mem hc⟩
    rw [hname, hcolumn]
  · rintro ⟨⟨table, ht, c, hc, hkey, rfl⟩ | hwhy, hsome⟩
    · exact ⟨table, ht, rfl, c, hc, rfl, .inl hkey⟩
    · obtain ⟨table, ht, hname⟩ := List.mem_map.1 (Catalog.mem_tableNames_of_column? hsome)
      rw [← hname, hd.column?_isSome_iff ht] at hsome
      obtain ⟨c, hc, hcolumn⟩ := List.mem_map.1 hsome
      exact ⟨table, ht, hname, c, hc, hcolumn, .inr hwhy⟩

/-! ## The three records -/

/-- What the report of a run says of a table. -/
def DataTable.entry (t : DataTable) (options : Options) : TableReport :=
  ⟨t.name, options.rows, UInt64.ofNat t.rows.size, UInt64.ofNat t.columns.length⟩

/-- The report and the pools of a run count the tables of its dataset. -/
structure Run.Recorded (options : Options) (run : Run) : Prop where
  report : run.report.tables = run.dataset.tables.map (·.entry options)
  rowCounts : ∀ name, run.pools.rowCount? name = (run.dataset.table? name).map (·.rows.size)

theorem Run.tables_addNoting (run : Run) (options : Options) (retained : SortedSet ColumnRef) (t : DataTable)
    (issues : List Issue) :
    (run.addNoting options retained t issues).report.tables = run.report.tables ++ [t.entry options] := by
  have hfold : ∀ r : Report, (issues.foldl Report.record r).tables = r.tables := by
    induction issues with
    | nil => exact fun _ => rfl
    | cons i issues ih => exact fun r => ih (r.record i)
  show (issues.foldl Report.record run.report).tables ++ [t.entry options] = _
  rw [hfold]

/-- One more table, of a name that is new, is recorded three times. -/
theorem Run.Recorded.add (h : run.Recorded options) (retained : SortedSet ColumnRef) {t : DataTable}
    (hnew : run.dataset.table? t.name = none) (issues : List Issue) :
    (run.addNoting options retained t issues).Recorded options where
  report := by
    show (run.addNoting options retained t issues).report.tables =
      (run.dataset.tables ++ [t]).map (·.entry options)
    rw [Run.tables_addNoting, h.report, List.map_append, List.map_singleton]
  rowCounts name := by
    show (run.pools.rowCounts.insert t.name t.rows.size).get? name =
      ((run.dataset.push t).table? name).map (·.rows.size)
    rw [SortedMap.get?_insert, Dataset.table?_push]
    by_cases hname : name = t.name
    · subst hname
      simp [hnew]
    · rw [if_neg hname, if_neg (Ne.symm hname), Option.or_none]
      exact h.rowCounts name

theorem Job.Progress.recorded (h : job.Progress names run) (hd : job.catalog.Distinct)
    (hn : names.Nodup) : run.Recorded job.options := by
  induction h with
  | start => exact ⟨rfl, fun _ => rfl⟩
  | @fill names run name table s h ht _ ih =>
    have hnames := (List.nodup_append.1 hn).1
    obtain ⟨-, rfl⟩ := Catalog.mem_of_table? ht
    have hsound := h.sound hd hnames
    refine (ih hnames).add _ ?_ _
    rw [(Job.always_fillTable hsound.even table s).name]
    exact hsound.table?_eq_none (not_mem_of_nodup hn)

/-- **The dataset, the pools and the report of a run agree.** The dataset has the tables of the
order, each with the columns of the schema and as many full rows as were asked for; the report
lists the same tables with the same counts; and the pools are those of the kept columns, each
with the values that the dataset has in the column, row by row. -/
theorem dataset_pools_and_report_agree (hd : catalog.Distinct)
    (hrun : (Job.ofSchema catalog keys attributes options).generate.1 = .ok run) :
    run.dataset.tableNames = (orderTables catalog keys attributes).tables ∧
    (∀ t ∈ run.dataset.tables, ∃ table ∈ catalog.tables, t.name = table.name ∧
      t.columns = table.columns.map (·.name) ∧ t.rows.size = options.rows.toNat ∧
      ∀ row ∈ t.rows, row.length = table.columns.length) ∧
    (run.report.tables = run.dataset.tables.map fun t =>
      ⟨t.name, options.rows, options.rows, UInt64.ofNat t.columns.length⟩) ∧
    (∀ ref, (run.pools.values? ref).isSome ↔ catalog.Keeps keys attributes ref) ∧
    (∀ ref pool, run.pools.values? ref = some pool → pool.size = options.rows.toNat ∧
      ∃ t, run.dataset.table? ref.table = some t ∧ ∀ r, t.value? r ref.column = pool[r]?) ∧
    ∀ name, run.pools.rowCount? name =
      if name ∈ (orderTables catalog keys attributes).tables then some options.rows.toNat else none := by
  have hprogress := Job.progress_of_generate hrun
  have hsound := hprogress.sound hd nodup_tables
  have hrecorded := hprogress.recorded hd nodup_tables
  have hsize : ∀ t ∈ run.dataset.tables, t.rows.size = options.rows.toNat := hsound.size
  refine ⟨hsound.inOrder, fun t ht => ?_, ?_, fun ref => ?_, fun ref pool hpool => ?_, fun name => ?_⟩
  · obtain ⟨table, htable, hname, hcolumns⟩ := hsound.filled t ht
    refine ⟨table, htable, hname, hcolumns, hsize t ht, fun row hrow => ?_⟩
    rw [hsound.rectangular t ht row (Array.mem_toList_iff.2 hrow), hcolumns, List.length_map]
  · rw [hrecorded.report]
    refine List.map_congr_left fun t ht => ?_
    rw [DataTable.entry, hsize t ht, UInt64.ofNat_toNat]
    rfl
  · have hmem : (catalog.column? ref.table ref.column).isSome →
        ref.table ∈ (orderTables catalog keys attributes).tables := fun hsome =>
      mem_tables_iff.2 (Catalog.mem_tableNames_of_column? hsome)
    have hpools : run.pools.values? ref = if (retainedColumns catalog keys attributes).contains ref = true
        then run.dataset.pool? ref else none := hsound.pools ref
    rw [hd.keeps_iff, hpools]
    by_cases hkeep : (retainedColumns catalog keys attributes).contains ref = true
    · rw [if_pos hkeep, hsound.pool?_isSome_iff hd]
      exact ⟨fun h => ⟨hkeep, h.2⟩, fun h => ⟨hmem h.2, h.2⟩⟩
    · rw [if_neg hkeep]
      exact ⟨fun h => absurd h Bool.false_ne_true, fun h => absurd h.1 hkeep⟩
  · refine ⟨hsound.even ref pool hpool, ?_⟩
    rw [hsound.pools] at hpool
    split at hpool
    · obtain ⟨t, ht, hvalues⟩ := Option.bind_eq_some_iff.1 hpool
      have hrect := hsound.rectangular t (Dataset.mem_of_table? ht).1
      exact ⟨t, ht, fun r => DataTable.value?_eq_of_pool? hvalues hrect⟩
    · cases hpool
  · rw [hrecorded.rowCounts]
    split
    · rename_i hmem
      obtain ⟨t, ht⟩ := hsound.exists_table hmem
      rw [ht, Option.map_some, hsize t (Dataset.mem_of_table? ht).1]
    · rename_i hno
      rw [hsound.table?_eq_none hno, Option.map_none]

theorem shop_records_agree :
    ∃ run, (Job.ofSchema shop shopKeys shopAttributes twoRows).generate.1 = .ok run ∧
      run.dataset.tableNames = ["users", "orders"] ∧
      run.report.tables = (run.dataset.tables.map fun t => ⟨t.name, 2, 2, UInt64.ofNat t.columns.length⟩) ∧
      (∃ pool, run.pools.values? ⟨"users", "score"⟩ = some pool ∧ pool.size = 2) ∧
      run.pools.values? ⟨"orders", "user_id"⟩ = none ∧ run.pools.rowCount? "orders" = some 2 := by
  obtain ⟨run, hrun⟩ := shop_completes
  obtain ⟨hnames, -, hreport, hkept, hvalues, hcounts⟩ := dataset_pools_and_report_agree shop_distinct hrun
  rw [shop_order] at hnames hcounts
  have hscore : (run.pools.values? ⟨"users", "score"⟩).isSome := (hkept _).2
    ⟨_, List.getElem_mem (by decide : 1 < shop.tables.length), rfl, _,
      List.getElem_mem (by decide : 1 < shop.tables[1].columns.length), rfl, .inr (.inr (by decide))⟩
  obtain ⟨pool, hpool⟩ := Option.isSome_iff_exists.1 hscore
  have huser : run.pools.values? ⟨"orders", "user_id"⟩ = none := by
    rw [← Option.not_isSome_iff_eq_none, hkept, shop_distinct.keeps_iff]
    decide
  exact ⟨run, hrun, hnames, hreport, ⟨pool, hpool, (hvalues _ _ hpool).1⟩, huser, hcounts "orders"⟩

end SeedData
