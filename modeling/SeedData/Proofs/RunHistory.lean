/-
How a run comes about (`Job.Progress`): tables are filled one after another, each from
the pools of those before it. What holds of a run on its way (`Run.Sound`) is kept by
filling one more table (`Run.Sound.add`), and so holds of a finished run.

`exists_filling` goes back from a finished run to the moment a table was filled.
-/
import Mathlib.Data.List.Permutation
import SeedData.Proofs.Journals
import SeedData.Proofs.PoolFacts
import SeedData.Proofs.RowFacts
import SeedData.Proofs.TablesInOrder

namespace SeedData

variable {job : Job} {run before : Run} {names rest earlier later : List String} {name : String} {table : Table}
  {c : Column} {pools : Pools} {filled : DataTable} {r : Nat} {s : Keystream}

/-! ## One table -/

/-- Where the values of a column come from. -/
def Job.source (job : Job) (table : Table) (c : Column) : Source :=
  sourceOf job.catalog job.keys (attributeTargets job.keys job.attributes) job.order table c

/-- What holds of a table that a job fills when the pools are these. -/
structure Job.Fills (job : Job) (pools : Pools) (table : Table) (filled : DataTable) : Prop where
  name : filled.name = table.name
  columns : filled.columns = table.columns.map (·.name)
  size : filled.rows.size = job.options.rows.toNat
  follow : RowsFollow job.options job.options.rows.toNat ((job.plan table).feeds pools)
    filled.rows.toList

/-- Each pool has one value for each row asked for. -/
def Pools.Even (n : Nat) (pools : Pools) : Prop :=
  ∀ ref pool, pools.values? ref = some pool → pool.size = n

theorem Pools.Even.sized {n : Nat} (h : pools.Even n) (source : Source) (ref : ColumnRef) :
    (source.feed pools ref).Sized n := by
  have havail : ∀ target pool, pools.available? target = some pool → pool.size = n ∧ 0 < n := by
    intro target pool hp
    obtain ⟨hp, hpos⟩ := available?_eq_some_iff.1 hp
    have hsize := h target pool hp
    exact ⟨hsize, hsize ▸ hpos⟩
  cases hfeed : source.feed pools ref with
  | sample =>
    obtain ⟨target, -, -, hp⟩ := Source.feed_eq_sample_iff.1 hfeed
    exact havail target _ hp
  | shared =>
    obtain ⟨target, type, -, -, -, hp⟩ := Source.feed_eq_shared_iff.1 hfeed
    exact havail target _ hp
  | empty | earlier | key | random => trivial

namespace Job

@[simp] theorem plan_name (job : Job) (table : Table) : (job.plan table).name = table.name := rfl

theorem plan_columns (job : Job) (table : Table) :
    (job.plan table).columns = table.columns.map fun c => ⟨c.name, job.source table c⟩ := rfl

theorem names_plan (job : Job) (table : Table) :
    (job.plan table).columns.map (·.name) = table.columns.map (·.name) := by
  rw [plan_columns, List.map_map]
  rfl

theorem feeds_plan (job : Job) (table : Table) (pools : Pools) : (job.plan table).feeds pools =
    table.columns.map fun c => (job.source table c).feed pools ⟨table.name, c.name⟩ := by
  simp [TablePlan.feeds, plan_columns, TablePlan.address]

theorem sized_feeds (hp : pools.Even job.options.rows.toNat) (table : Table) :
    ∀ feed ∈ (job.plan table).feeds pools, feed.Sized job.options.rows.toNat := by
  intro feed hfeed
  obtain ⟨c, -, rfl⟩ := List.mem_map.1 hfeed
  exact hp.sized c.source _

/-- A table filled by draws alone, when the pools are these. -/
abbrev drawTable (job : Job) (pools : Pools) (table : Table) : Draw DataTable :=
  job.fillTable pools (job.plan table)

/-- Nothing is drawn for the issues of a table. -/
theorem drawTable_eq (job : Job) (pools : Pools) (table : Table) : job.drawTable pools table =
    (fun rows => ⟨table.name, table.columns.map (·.name), rows⟩) <$>
      fillRows job.options ((job.plan table).feeds pools) job.options.rows.toNat #[] := by
  rw [drawTable, fillTable, forM_record_eq, pure_bind, names_plan, map_eq_pure_bind]
  rfl

/-- The journal kept beside a table does not show in it. -/
theorem run_fillTable (job : Job) (pools : Pools) (table : Table) (report : Report) (s : Keystream) :
    ((job.fillTable pools (job.plan table) : StateT Journal Draw DataTable).run (.ofReport report)).run s =
      ((((job.drawTable pools table).run s).1,
        (job.plan table).noted pools job.options.rows (.ofReport report)),
        ((job.drawTable pools table).run s).2) :=
  congrArg (StateT.run · s) (tells_fillTable job pools (job.plan table) (.ofReport report))

theorem always_fillTable (hp : pools.Even job.options.rows.toNat) (table : Table) :
    (job.drawTable pools table).Always (job.Fills pools table) := by
  have hs := sized_feeds hp table
  have hstart : RowsFollow job.options job.options.rows.toNat ((job.plan table).feeds pools)
      (#[] : Array (List Value)).toList := fun before row after h => by simp at h
  rw [drawTable_eq, map_eq_pure_bind]
  refine Draw.Always.bind (always_fillRows hs (Nat.le_refl _) hstart) fun rows hrows => ?_
  exact Draw.Always.pure ⟨rfl, rfl, by simpa using hrows.1, hrows.2⟩

/-- A filled table has as many values in each row as columns. -/
theorem Fills.rectangular (h : job.Fills pools table filled) : filled.Rectangular := by
  intro row hrow
  obtain ⟨before, after, hl⟩ := List.append_of_mem hrow
  obtain ⟨chosen, hrow⟩ := h.follow before row after hl
  rw [← hrow.gives.length_eq, h.columns, feeds_plan, List.length_map, List.length_map]

theorem Fills.exists_row (h : job.Fills pools table filled) (hr : r < filled.rows.size) :
    ∃ row chosen, filled.rows[r]? = some row ∧ RowFollows job.options job.options.rows.toNat
      ((job.plan table).feeds pools) (filled.rows.toList.take r) chosen row := by
  obtain ⟨chosen, hrow⟩ := h.follow.getElem (by simpa using hr)
  exact ⟨_, chosen, by simp [hr], hrow⟩

/-- A cell holds what the feed of its column gives. -/
theorem Fills.cell (h : job.Fills pools table filled) (hn : (table.columns.map (·.name)).Nodup)
    {left right : List Column} (hl : table.columns = left ++ c :: right) {rows : List (List Value)}
    {chosen : String → Nat} {row : List Value} (hr : filled.rows[r]? = some row)
    (hrow : RowFollows job.options job.options.rows.toNat ((job.plan table).feeds pools) rows chosen row) :
    ∃ v, filled.value? r c.name = some v ∧ row[left.length]? = some v ∧
      ((job.source table c).feed pools ⟨table.name, c.name⟩).Gives job.options rows chosen v := by
  have hindex : filled.columnIndex? c.name = some left.length := by
    rw [hl, List.map_append, List.map_cons, List.nodup_middle, List.nodup_cons, List.mem_append, not_or] at hn
    rw [DataTable.columnIndex?, h.columns, hl, List.map_append, List.map_cons, idxOf?_middle hn.1.1,
      List.length_map]
  obtain ⟨hlen, hgives⟩ := List.forall₂_iff_get.1 hrow.gives
  have hlt : left.length < ((job.plan table).feeds pools).length := by simp [feeds_plan, hl]
  have hget := hgives left.length hlt (hlen ▸ hlt)
  simp only [feeds_plan, hl, List.get_eq_getElem, List.getElem_map, List.getElem_append_right (Nat.le_refl _),
    Nat.sub_self, List.getElem_cons_zero] at hget
  have hv : row[left.length]? = some (row.get ⟨left.length, hlen ▸ hlt⟩) := List.getElem?_eq_getElem _
  refine ⟨_, ?_, hv, hget⟩
  simp [DataTable.value?, hindex, hr, hv]

/-- Each row has a cell in a column, which holds what the column's feed gives after the rows
before it. -/
theorem Fills.cell_after (h : job.Fills pools table filled) (hn : (table.columns.map (·.name)).Nodup)
    (hc : c ∈ table.columns) (hr : r < filled.rows.size) :
    ∃ chosen v, filled.value? r c.name = some v ∧
      ((job.source table c).feed pools ⟨table.name, c.name⟩).Gives job.options
        (filled.rows.toList.take r) chosen v := by
  obtain ⟨left, right, hl⟩ := List.append_of_mem hc
  obtain ⟨row, chosen, hrow, hfol⟩ := h.exists_row hr
  obtain ⟨v, hv, -, hgives⟩ := h.cell hn hl hrow hfol
  exact ⟨chosen, v, hv, hgives⟩

theorem Fills.exists_cell (h : job.Fills pools table filled) (hn : (table.columns.map (·.name)).Nodup)
    (hc : c ∈ table.columns) (hr : r < filled.rows.size) :
    ∃ rows chosen v, filled.value? r c.name = some v ∧
      ((job.source table c).feed pools ⟨table.name, c.name⟩).Gives job.options rows chosen v :=
  ⟨_, h.cell_after hn hc hr⟩

/-- The cells of a column of keys. -/
theorem Fills.key_cell (h : job.Fills pools table filled) (hn : (table.columns.map (·.name)).Nodup)
    (hc : c ∈ table.columns) {type : ColumnType} (hsource : job.source table c = .key type)
    (hr : r < filled.rows.size) :
    filled.value? r c.name = some (type.key c.name (UInt64.ofNat r) job.options.baseDate) := by
  obtain ⟨chosen, v, hv, hgives⟩ := h.cell_after hn hc hr
  have hlength : (filled.rows.toList.take r).length = r := by simp; omega
  rw [hsource] at hgives
  rw [hv, show v = _ from hgives, hlength]

end Job

/-! ## The way of a run -/

/-- The run with one more table and these issues. -/
def Run.addNoting (run : Run) (options : Options) (retained : SortedSet ColumnRef) (table : DataTable)
    (issues : List Issue) : Run :=
  run.add options retained table (issues.foldl Report.record run.report)

namespace Job

/-- The runs on the way of a job, each with the names of the tables filled so far. -/
inductive Progress (job : Job) : List String → Run → Prop
  | start : Progress job [] job.start
  | fill {names : List String} {run : Run} {name : String} {table : Table} {s : Keystream} :
      Progress job names run → job.catalog.table? name = some table →
      ((job.drawTable run.pools table).run s).1.isSupported = true →
      Progress job (names ++ [name]) (run.addNoting job.options job.retained
        ((job.drawTable run.pools table).run s).1 ((job.plan table).issues run.pools job.options.rows))

/-- How a run goes on from a table that the schema has. -/
theorem fillTables_cons (ht : job.catalog.table? name = some table) :
    (job.fillTables (name :: rest) before s).1 =
      if (job.plan table).canWriteKeys job.options.rows = true then
        if ((job.drawTable before.pools table).run s).1.isSupported = true then
          (job.fillTables rest (before.addNoting job.options job.retained
              ((job.drawTable before.pools table).run s).1
              ((job.plan table).issues before.pools job.options.rows))
            ((job.drawTable before.pools table).run s).2).1
        else .error .outsideCalendar
      else .error .keyTooWide := by
  rw [fillTables, ht]
  simp only [run_fillTable, (TablePlan.noted_ofReport _ _ _ _).1]
  by_cases hwrite : (job.plan table).canWriteKeys job.options.rows = true
  · by_cases hsupported : ((job.drawTable before.pools table).run s).1.isSupported = true <;>
      simp [hwrite, hsupported, Run.addNoting]
  · simp [hwrite]

/-- A run goes past a table that the schema has, whose keys can be written and whose dates are
supported. -/
theorem fillTables_cons_eq_ok_iff : (job.fillTables (name :: rest) before s).1 = .ok run ↔
    ∃ table, job.catalog.table? name = some table ∧ (job.plan table).canWriteKeys job.options.rows = true ∧
      ((job.drawTable before.pools table).run s).1.isSupported = true ∧
      (job.fillTables rest (before.addNoting job.options job.retained
          ((job.drawTable before.pools table).run s).1
          ((job.plan table).issues before.pools job.options.rows))
        ((job.drawTable before.pools table).run s).2).1 = .ok run := by
  cases ht : job.catalog.table? name with
  | none => simp [fillTables, ht]
  | some table =>
    rw [fillTables_cons ht]
    by_cases hwrite : (job.plan table).canWriteKeys job.options.rows = true
    · by_cases hsupported : ((job.drawTable before.pools table).run s).1.isSupported = true <;>
        simp [hwrite, hsupported]
    · simp [hwrite]

theorem progress_fillTables (h : Progress job names before)
    (hrun : (job.fillTables rest before s).1 = .ok run) : Progress job (names ++ rest) run := by
  induction rest generalizing names before s with
  | nil =>
    cases hrun
    rwa [List.append_nil]
  | cons name rest ih =>
    obtain ⟨table, ht, -, hsupported, hrun⟩ := fillTables_cons_eq_ok_iff.1 hrun
    rw [List.append_cons]
    exact ih (h.fill ht hsupported) hrun

theorem generate_eq_ok_iff : job.generate.1 = .ok run ↔ job.options.isValid = true ∧
    (job.fillTables job.order.tables job.start (Keystream.ofSeed job.options.seed)).1 = .ok run := by
  unfold generate
  by_cases hvalid : job.options.isValid = true <;> simp [hvalid]

theorem progress_of_generate (h : job.generate.1 = .ok run) : Progress job job.order.tables run :=
  progress_fillTables .start (generate_eq_ok_iff.1 h).2

end Job

namespace Run

/-- What holds of a run on its way, when the tables of these names have been filled. -/
structure Sound (job : Job) (names : List String) (run : Run) : Prop where
  inOrder : run.dataset.tableNames = names
  filled : ∀ t ∈ run.dataset.tables, ∃ table ∈ job.catalog.tables,
    t.name = table.name ∧ t.columns = table.columns.map (·.name)
  size : ∀ t ∈ run.dataset.tables, t.rows.size = job.options.rows.toNat
  rectangular : ∀ t ∈ run.dataset.tables, t.Rectangular
  supported : ∀ t ∈ run.dataset.tables, t.isSupported = true
  pools : ∀ ref, run.pools.values? ref =
    if job.retained.contains ref = true then run.dataset.pool? ref else none
  issues : ∀ i ∈ run.report.issues, ∃ name ∈ names, i.table = some name

theorem issues_addNoting (run : Run) (options : Options) (retained : SortedSet ColumnRef)
    (table : DataTable) (issues : List Issue) :
    (run.addNoting options retained table issues).report.issues = run.report.issues ++ issues := by
  have hfold : ∀ r : Report, (issues.foldl Report.record r).issues = r.issues ++ issues := by
    induction issues with
    | nil => simp
    | cons i issues ih => simp [ih, Report.record]
  exact hfold run.report

theorem sound_start (job : Job) : job.start.Sound job [] where
  inOrder := rfl
  filled := by simp [Job.start, Dataset.empty]
  size := by simp [Job.start, Dataset.empty]
  rectangular := by simp [Job.start, Dataset.empty]
  supported := by simp [Job.start, Dataset.empty]
  pools ref := by simp [Job.start, Pools.values?, Pools.empty, Dataset.pool?, Dataset.table?, Dataset.empty]
  issues := by simp [Job.start, Report.ofOptions]

theorem Sound.even (h : run.Sound job names) : run.pools.Even job.options.rows.toNat := by
  intro ref pool hp
  rw [h.pools] at hp
  split at hp
  · obtain ⟨t, ht, hp⟩ := Option.bind_eq_some_iff.1 hp
    rw [DataTable.size_of_pool? hp, h.size t (Dataset.mem_of_table? ht).1]
  · cases hp

theorem Sound.exists_table (h : run.Sound job names) (hmem : name ∈ names) :
    ∃ t, run.dataset.table? name = some t := by
  rwa [← Option.isSome_iff_exists, Dataset.table?_isSome_iff, h.inOrder]

theorem Sound.table?_eq_none (h : run.Sound job names) (hnew : name ∉ names) :
    run.dataset.table? name = none := by
  rwa [← Option.not_isSome_iff_eq_none, Dataset.table?_isSome_iff, h.inOrder]

/-- One more table is filled. -/
theorem Sound.add (h : run.Sound job names) (hd : job.catalog.Distinct) (ht : table ∈ job.catalog.tables)
    (hnew : table.name ∉ names) (hf : job.Fills run.pools table filled)
    (hsupported : filled.isSupported = true) :
    (run.addNoting job.options job.retained filled ((job.plan table).issues run.pools job.options.rows)).Sound
      job (names ++ [table.name]) where
  inOrder := by
    rw [← h.inOrder, ← hf.name]
    exact List.map_append
  filled := Dataset.forall_mem_push h.filled ⟨table, ht, hf.name, hf.columns⟩
  size := Dataset.forall_mem_push h.size hf.size
  rectangular := Dataset.forall_mem_push h.rectangular hf.rectangular
  supported := Dataset.forall_mem_push h.supported hsupported
  pools ref := by
    have hcols : filled.columns.Nodup := hf.columns ▸ hd.columns table ht
    show (run.pools.ingest filled job.retained).values? ref =
      if job.retained.contains ref = true then (run.dataset.push filled).pool? ref else none
    rw [Pools.values?_ingest _ _ hcols, h.pools, Dataset.pool?, Dataset.pool?, Dataset.table?_push]
    by_cases hkeep : job.retained.contains ref = true
    · by_cases hname : ref.table = filled.name
      · -- No table of the name has been filled before.
        have hnone : run.dataset.table? ref.table = none := by
          rw [hname, hf.name]
          exact h.table?_eq_none hnew
        rw [if_pos ⟨hname, hkeep⟩, if_pos hkeep, if_pos hkeep, hnone, if_pos hname.symm]
        simp
      · simp [hkeep, hname, Ne.symm hname]
    · simp [hkeep]
  issues i hi := by
    rw [issues_addNoting] at hi
    rcases List.mem_append.1 hi with hi | hi
    · obtain ⟨name, hname, heq⟩ := h.issues i hi
      exact ⟨name, List.mem_append_left _ hname, heq⟩
    · exact ⟨table.name, by simp, TablePlan.table_of_mem_issues hi⟩

end Run

theorem Job.Progress.sound (h : job.Progress names run) (hd : job.catalog.Distinct) (hn : names.Nodup) :
    run.Sound job names := by
  induction h with
  | start => exact Run.sound_start job
  | @fill names run name table s h ht hsupported ih =>
    obtain ⟨hmem, rfl⟩ := Catalog.mem_of_table? ht
    have hsound := ih (List.nodup_append.1 hn).1
    refine hsound.add hd hmem (not_mem_of_nodup hn) ?_ hsupported
    exact Job.always_fillTable hsound.even table s

/-! ## Going back -/

/-- How a table of a run was filled: after the tables of the earlier names, from what
the run had come to before. -/
structure Job.Filling (job : Job) (run : Run) (table : Table) (earlier : List String) (before : Run)
    (filled : DataTable) : Prop where
  sound : before.Sound job earlier
  fills : job.Fills before.pools table filled
  found : run.dataset.table? table.name = some filled
  keeps : ∀ name t, before.dataset.table? name = some t → run.dataset.table? name = some t
  issues : run.report.issues.filter (fun i => i.table = some table.name) =
    (job.plan table).issues before.pools job.options.rows

theorem Run.Sound.filling (h : run.Sound job names) (hnew : table.name ∉ names)
    (hf : job.Fills run.pools table filled) :
    job.Filling (run.addNoting job.options job.retained filled
      ((job.plan table).issues run.pools job.options.rows)) table names run filled where
  sound := h
  fills := hf
  found := by
    show (run.dataset.push filled).table? table.name = some filled
    rw [Dataset.table?_push, h.table?_eq_none hnew, if_pos hf.name, Option.none_or]
  keeps name t := Dataset.table?_push_of_some
  issues := by
    have hold : run.report.issues.filter (fun i => i.table = some table.name) = [] := by
      rw [List.filter_eq_nil_iff]
      intro i hi htable
      obtain ⟨name, hmem, heq⟩ := h.issues i hi
      simp only [heq, Option.some.injEq, decide_eq_true_eq] at htable
      exact hnew (htable ▸ hmem)
    rw [issues_addNoting, List.filter_append, hold, List.nil_append, List.filter_eq_self]
    intro i hi
    simpa using TablePlan.table_of_mem_issues hi

/-- Filling another table changes nothing about one that has been filled. -/
theorem Job.Filling.add (h : job.Filling run table earlier before filled) (t : DataTable)
    {issues : List Issue} (hi : ∀ i ∈ issues, i.table ≠ some table.name) :
    job.Filling (run.addNoting job.options job.retained t issues) table earlier before filled where
  sound := h.sound
  fills := h.fills
  found := Dataset.table?_push_of_some h.found
  keeps name u hu := Dataset.table?_push_of_some (h.keeps name u hu)
  issues := by
    have hother : issues.filter (fun i => i.table = some table.name) = [] := by
      simpa [List.filter_eq_nil_iff] using hi
    rw [Run.issues_addNoting, List.filter_append, hother, List.append_nil]
    exact h.issues

theorem Job.Progress.exists_filling (h : job.Progress names run) (hd : job.catalog.Distinct)
    (hn : names.Nodup) (ht : table ∈ job.catalog.tables) (hl : names = earlier ++ table.name :: later) :
    ∃ before filled, job.Filling run table earlier before filled := by
  induction h generalizing later with
  | start => simp at hl
  | @fill names run name last s h hlast _ ih =>
    obtain ⟨hnames, -, hnew⟩ := List.nodup_append.1 hn
    obtain ⟨hmem, rfl⟩ := Catalog.mem_of_table? hlast
    have hsound := h.sound hd hnames
    rcases eq_or_before_of_concat hl with ⟨rfl, hname⟩ | ⟨rest, hl, -⟩
    · obtain rfl := List.inj_on_of_nodup_map hd.tables hmem ht hname
      exact ⟨run, _, hsound.filling (not_mem_of_nodup hn) (always_fillTable hsound.even last s)⟩
    · obtain ⟨before, filled, hfill⟩ := ih hnames hl
      refine ⟨before, filled, hfill.add _ fun i hi htable => ?_⟩
      rw [TablePlan.table_of_mem_issues hi, Option.some.injEq] at htable
      exact hnew table.name (by simp [hl]) last.name (by simp) htable.symm

/-- The issues about a column. -/
def Report.about (r : Report) (ref : ColumnRef) : List Issue :=
  r.issues.filter fun i => i.table = some ref.table ∧ i.column = some ref.column

/-- The issues about a column are its shortfalls at the time its table was filled. -/
theorem Job.Filling.about (h : job.Filling run table earlier before filled) (hd : job.catalog.Distinct)
    (ht : table ∈ job.catalog.tables) (hc : c ∈ table.columns) :
    run.report.about ⟨table.name, c.name⟩ =
      ((job.source table c).shortfalls before.pools job.options.rows table.name).map
        (Shortfall.issue ⟨table.name, c.name⟩) := by
  have hn : ((job.plan table).columns.map (·.name)).Nodup := by
    rw [names_plan]
    exact hd.columns table ht
  have hmem : ⟨c.name, job.source table c⟩ ∈ (job.plan table).columns := by
    rw [plan_columns]
    exact List.mem_map_of_mem hc
  calc run.report.about ⟨table.name, c.name⟩
      = (run.report.issues.filter fun i => i.table = some table.name).filter
          fun i => i.column = some c.name := by
        rw [List.filter_filter, Report.about]
        exact List.filter_congr fun i _ => by simp [Bool.and_comm]
    _ = ((job.plan table).issues before.pools job.options.rows).filter
          fun i => i.column = some c.name := by rw [h.issues]
    _ = _ := TablePlan.filter_issues hn hmem

/-! ## Pools on the way -/

theorem Run.Sound.pool?_isSome_iff (h : run.Sound job names) (hd : job.catalog.Distinct)
    {ref : ColumnRef} : (run.dataset.pool? ref).isSome ↔
      ref.table ∈ names ∧ (job.catalog.column? ref.table ref.column).isSome := by
  rw [← h.inOrder, ← Dataset.table?_isSome_iff, Dataset.pool?]
  cases ht : run.dataset.table? ref.table with
  | none => simp
  | some t =>
    obtain ⟨hmem, hname⟩ := Dataset.mem_of_table? ht
    obtain ⟨table, htable, hname', hcols⟩ := h.filled t hmem
    rw [Option.bind_some, DataTable.pool?_isSome_iff, hcols, ← hname, hname', hd.column?_isSome_iff htable]
    simp

/-- The pools that have a value are those of the retained columns of the tables filled. -/
theorem Run.Sound.available?_isSome_iff (h : run.Sound job names) (hd : job.catalog.Distinct)
    (hrows : job.options.rows ≠ 0) {ref : ColumnRef} : (run.pools.available? ref).isSome ↔
      job.retained.contains ref = true ∧ ref.table ∈ names ∧
        (job.catalog.column? ref.table ref.column).isSome := by
  have hpos : 0 < job.options.rows.toNat :=
    Nat.pos_of_ne_zero fun h0 => hrows (UInt64.toNat_inj.1 h0)
  rw [← h.pool?_isSome_iff hd, Option.isSome_iff_exists, Option.isSome_iff_exists]
  constructor
  · intro hp
    obtain ⟨pool, hp⟩ := hp
    obtain ⟨hp, -⟩ := Pools.available?_eq_some_iff.1 hp
    rw [h.pools] at hp
    split at hp
    · rename_i hkeep
      exact ⟨hkeep, pool, hp⟩
    · cases hp
  · intro hp
    obtain ⟨hkeep, pool, hp⟩ := hp
    have hvalues : run.pools.values? ref = some pool := by rw [h.pools, if_pos hkeep, hp]
    exact ⟨pool, Pools.available?_eq_some_iff.2 ⟨hvalues, h.even ref pool hvalues ▸ hpos⟩⟩

/-- The values that an earlier table left are those of the finished run. -/
theorem Job.Filling.pool (h : job.Filling run table earlier before filled) {ref : ColumnRef}
    {pool : Array Value} (hp : before.pools.available? ref = some pool) :
    ∃ parent, run.dataset.table? ref.table = some parent ∧
      ∀ i, parent.value? i ref.column = pool[i]? := by
  obtain ⟨hp, -⟩ := Pools.available?_eq_some_iff.1 hp
  rw [h.sound.pools] at hp
  split at hp
  · obtain ⟨parent, hparent, hp⟩ := Option.bind_eq_some_iff.1 hp
    have hrect := h.sound.rectangular parent (Dataset.mem_of_table? hparent).1
    exact ⟨parent, h.keeps _ _ hparent, fun i => DataTable.value?_eq_of_pool? hp hrect⟩
  · cases hp

/-! ## Runs over a schema -/

/-- The job of filling the tables of a schema in the order that its references give. -/
def Job.ofSchema (catalog : Catalog) (keys : ForeignKeys) (attributes : List Reference)
    (options : Options) : Job :=
  ⟨catalog, keys, attributes, orderTables catalog keys attributes, options⟩

@[simp] theorem Job.options_ofSchema (catalog : Catalog) (keys : ForeignKeys)
    (attributes : List Reference) (options : Options) :
    (Job.ofSchema catalog keys attributes options).options = options := rfl

/-- A table of a finished run was filled when those before it in the order had been. -/
theorem exists_filling {catalog : Catalog} {keys : ForeignKeys} {attributes : List Reference}
    {options : Options} (hd : catalog.Distinct)
    (hrun : (Job.ofSchema catalog keys attributes options).generate.1 = .ok run)
    (ht : table ∈ catalog.tables) : ∃ earlier before filled,
      (Job.ofSchema catalog keys attributes options).Filling run table earlier before filled ∧
        ∃ later, (orderTables catalog keys attributes).tables = earlier ++ table.name :: later := by
  have hmem : table.name ∈ (orderTables catalog keys attributes).tables :=
    mem_tables_iff.2 (List.mem_map_of_mem ht)
  obtain ⟨earlier, later, hl⟩ := List.append_of_mem hmem
  obtain ⟨before, filled, hfill⟩ :=
    (Job.progress_of_generate hrun).exists_filling hd nodup_tables ht hl
  exact ⟨earlier, before, filled, hfill, later, hl⟩

/-! ## A small run -/

/-- Orders that take a number and a score from users. -/
def shop : Catalog where
  tables := [⟨"orders", [⟨"user_id", "int", ⟨[]⟩⟩, ⟨"user_score", "int", ⟨[]⟩⟩]⟩,
    ⟨"users", [⟨"id", "int", ⟨[]⟩⟩, ⟨"score", "int", ⟨[]⟩⟩]⟩]
  enums := []

/-- The foreign key of `shop`. -/
def shopKeys : ForeignKeys := SortedMap.empty.insert ⟨"orders", "user_id"⟩ ⟨"users", "id"⟩

/-- The reference of `shop` to an attribute. -/
def shopAttributes : List Reference := [⟨"orders", "user_score", "users", "score"⟩]

/-- Two rows of each table. -/
def twoRows : Options := { Options.default with rows := 2 }

theorem shop_distinct : shop.Distinct := ⟨by decide, by decide⟩

theorem shop_order : orderTables shop shopKeys shopAttributes =
    ⟨⟨2, 1⟩, ["users", "orders"], [], [], []⟩ := by cbv

theorem exists_ok_of_map {ε α β : Type} {result : Except ε α} {f : α → β} {b : β}
    (h : result.toOption.map f = some b) : ∃ a, result = .ok a ∧ f a = b := by
  cases result with
  | ok a => exact ⟨a, rfl, Option.some.inj h⟩
  | error fault => cases h

theorem exists_run_of_isOk {result : Except Fault Run} (h : result.isOk = true) :
    ∃ run, result = .ok run := by
  cases result with
  | ok run => exact ⟨run, rfl⟩
  | error fault => cases h

theorem shop_completes : ∃ run, (Job.ofSchema shop shopKeys shopAttributes twoRows).generate.1 = .ok run := by
  refine exists_run_of_isOk ?_
  rw [Job.ofSchema, shop_order]
  decide +kernel

end SeedData
