/-
References to attributes that are passed over: those from a column that is a foreign key, and
those that a later one from their column takes the place of. No column gets its values from
what they lead to. But each of them asks for that table to come first, and so leaving them out
(`countingReferences`) changes the data of a run exactly if it changes the order of the tables
(`disregarded_references_only_order`).

The two runs have different pools, since what a reference leads to is kept whether it counts
or not. They agree in the pools that some column is filled from (`Run.Alike`).
-/
import SeedData.Proofs.DeclarationOrder
import SeedData.Proofs.SmallestOrder

namespace SeedData

variable {catalog : Catalog} {keys : ForeignKeys} {refs attributes attributes' : List Reference}
  {ref target : ColumnRef} {options : Options}

/-! ## References that count -/

/-- The references to attributes that columns are filled from: of those from one column the
last, and none from a column that is a foreign key. -/
def countingReferences (keys : ForeignKeys) : List Reference → List Reference
  | [] => []
  | r :: rest =>
    if keys.contains r.source || rest.any (·.source = r.source) then countingReferences keys rest
    else r :: countingReferences keys rest

theorem countingReferences_sublist (keys : ForeignKeys) (refs : List Reference) :
    (countingReferences keys refs).Sublist refs := by
  induction refs with
  | nil => exact .slnil
  | cons r rest ih =>
    rw [countingReferences]
    split
    · exact ih.cons r
    · exact ih.cons_cons r

/-- The last reference from a column that is no foreign key counts. -/
theorem getLast?_countingReferences (h : keys.contains ref = false) (refs : List Reference) :
    ((countingReferences keys refs).filter (·.source = ref)).getLast? =
      (refs.filter (·.source = ref)).getLast? := by
  induction refs with
  | nil => rfl
  | cons r rest ih =>
    rw [countingReferences]
    by_cases hr : r.source = ref
    · rw [hr, h, Bool.false_or, List.filter_cons_of_pos (by simpa using hr)]
      split
      · rename_i hlater
        obtain ⟨later, hmem, hsource⟩ := List.any_eq_true.1 hlater
        have hne : rest.filter (·.source = ref) ≠ [] :=
          List.ne_nil_of_mem (List.mem_filter.2 ⟨hmem, hsource⟩)
        rw [ih, List.getLast?_cons_of_ne_nil hne]
      · rename_i hno
        have hnil : rest.filter (·.source = ref) = [] := by simpa [List.filter_eq_nil_iff] using hno
        have hnil' : (countingReferences keys rest).filter (·.source = ref) = [] :=
          List.sublist_nil.1 (hnil ▸ (countingReferences_sublist keys rest).filter _)
        rw [List.filter_cons_of_pos (by simpa using hr), hnil, hnil']
    · rw [List.filter_cons_of_neg (by simpa using hr), ← ih]
      split
      · rfl
      · rw [List.filter_cons_of_neg (by simpa using hr)]

/-- Columns are filled from the references that count. -/
theorem attributeTargets_countingReferences (keys : ForeignKeys) (refs : List Reference) :
    attributeTargets keys (countingReferences keys refs) = attributeTargets keys refs := by
  refine SortedMap.eq_of_get? fun ref => ?_
  cases hkey : keys.get? ref with
  | none =>
    rw [get?_attributeTargets hkey, get?_attributeTargets hkey,
      getLast?_countingReferences (by simp [SortedMap.contains, hkey])]
  | some parent =>
    have hnone : ∀ refs, (attributeTargets keys refs).get? ref = none := fun refs => by
      rw [attributeTargets_eq]
      refine ForeignKeys.get?_ofReferences_eq_none fun r hr hsource => ?_
      simpa [hsource, SortedMap.contains, hkey] using (List.mem_filter.1 hr).2
    rw [hnone, hnone]

theorem exists_of_attributeTargets (h : (attributeTargets keys refs).get? ref = some target) :
    ∃ r ∈ refs, r.target = target := by
  rw [attributeTargets_eq, ForeignKeys.get?_ofReferences] at h
  obtain ⟨r, hr, htarget⟩ := Option.map_eq_some_iff.1 h
  exact ⟨r, (List.mem_filter.1 (List.mem_filter.1 (List.mem_of_getLast? hr)).1).1, htarget⟩

/-! ## What columns are filled from -/

/-- The column of another table that a source takes values from. -/
def Source.reads? : Source → Option ColumnRef
  | parent target _ => some target
  | shared target _ => some target
  | _ => none

/-- A foreign key or a reference to an attribute leads to what a column is filled from. -/
theorem exists_of_reads {order : TableOrder} {table : Table} {c : Column}
    (h : target ∈ (sourceOf catalog keys (attributeTargets keys attributes) order table c).reads?) :
    (∃ source, keys.get? source = some target) ∨ ∃ r ∈ attributes, r.target = target := by
  unfold sourceOf at h
  dsimp only at h
  split at h
  · rename_i parent hkey
    split at h
    · cases h
    · cases h
      exact .inl ⟨_, hkey⟩
  · split at h
    · rename_i parent htarget
      cases h
      exact .inr (exists_of_attributeTargets htarget)
    · split at h <;> cases h

/-- What columns are filled from is kept. -/
theorem mem_retainedColumns_of_reads {order : TableOrder} {table : Table} {c : Column}
    (h : target ∈ (sourceOf catalog keys (attributeTargets keys attributes) order table c).reads?) :
    (retainedColumns catalog keys attributes).contains target = true := by
  rcases exists_of_reads h with ⟨source, hkey⟩ | ⟨r, hr, rfl⟩
  · exact mem_retainedColumns_of_key hkey
  · exact mem_retainedColumns_of_attribute hr

namespace Source

variable {pools pools' : Pools} {source : Source}

theorem feed_congr (h : ∀ target ∈ source.reads?, pools'.available? target = pools.available? target)
    (ref : ColumnRef) : source.feed pools' ref = source.feed pools ref := by
  cases source with
  | parent target | shared target => simp [feed, h target rfl]
  | earlier place => cases place <;> rfl
  | key | random => rfl

end Source

theorem TablePlan.feeds_congr {pools pools' : Pools} {p : TablePlan} (h : ∀ c ∈ p.columns,
    ∀ target ∈ c.source.reads?, pools'.available? target = pools.available? target) :
    p.feeds pools' = p.feeds pools :=
  List.map_congr_left fun c hc => Source.feed_congr (h c hc) _

/-! ## Runs side by side -/

/-- Two runs with the same data and the same report, and with the same pools of the columns
in `S`. -/
structure Run.Alike (S : ColumnRef → Prop) (run run' : Run) : Prop where
  dataset : run'.dataset = run.dataset
  report : run'.report = run.report
  pools : ∀ ref, S ref → run'.pools.values? ref = run.pools.values? ref

/-- Two jobs that find the same tables in the same order, with the same plan for each, and
keep all that columns are filled from, whatever else each of them keeps. -/
structure Job.Parallel (job job' : Job) : Prop where
  find : job'.catalog.table? = job.catalog.table?
  plan : job'.plan = job.plan
  tables : job'.order.tables = job.order.tables
  removed : job'.order.removed = job.order.removed
  options : job'.options = job.options
  kept : ∀ table, ∀ c ∈ (job.plan table).columns, ∀ target ∈ c.source.reads?,
    job.retained.contains target = true ∧ job'.retained.contains target = true

theorem Pools.get?_keep_congr {table : String} {rows : Array (List Value)} {retained retained' : SortedSet ColumnRef}
    {pools pools' : SortedMap ColumnRef (Array Value)} (href : retained'.contains ref = retained.contains ref)
    (hpools : pools'.get? ref = pools.get? ref) (index : Nat) (names : List String) :
    (keep table rows retained' pools' index names).get? ref =
      (keep table rows retained pools index names).get? ref := by
  induction names generalizing pools pools' index with
  | nil => exact hpools
  | cons name names ih =>
    rw [keep, keep]
    refine ih ?_ _
    by_cases hname : (⟨table, name⟩ : ColumnRef) = ref
    · rw [hname, href]
      split
      · rw [SortedMap.get?_insert_self, SortedMap.get?_insert_self]
      · exact hpools
    · have hother : ∀ (keeps : Bool) (pools : SortedMap ColumnRef (Array Value)),
          (if keeps then pools.insert ⟨table, name⟩ (column rows index) else pools).get? ref = pools.get? ref := by
        intro keeps pools
        split
        · exact SortedMap.get?_insert_other pools _ (Ne.symm hname)
        · rfl
      rw [hother, hother, hpools]

namespace Job.Parallel

variable {job job' : Job} {run run' : Run}

/-- Both jobs keep the column. -/
def Kept (job job' : Job) (ref : ColumnRef) : Prop :=
  job.retained.contains ref = true ∧ job'.retained.contains ref = true

theorem available (h : job.Parallel job') (halike : run.Alike (Kept job job') run') (table : Table) :
    ∀ c ∈ (job.plan table).columns, ∀ target ∈ c.source.reads?,
      run'.pools.available? target = run.pools.available? target := by
  intro c hc target htarget
  rw [Pools.available?, Pools.available?, halike.pools target (h.kept table c hc target htarget)]

theorem add (h : run.Alike (Kept job job') run') (options : Options) (table : DataTable) (report : Report) :
    (run.add options job.retained table report).Alike (Kept job job')
      (run'.add options job'.retained table report) where
  dataset := congrArg (Dataset.push · table) h.dataset
  report := rfl
  pools ref href := Pools.get?_keep_congr (href.2.trans href.1.symm) (h.pools ref href) _ _

theorem fillTables (h : job.Parallel job') (halike : run.Alike (Kept job job') run') (names : List String)
    (s : Keystream) :
    (job'.fillTables names run' s).1.map (fun run => (run.dataset, run.report)) =
      (job.fillTables names run s).1.map fun run => (run.dataset, run.report) := by
  induction names generalizing run run' s with
  | nil => simp [Job.fillTables, Except.map, halike.dataset, halike.report]
  | cons name rest ih =>
    rw [Job.fillTables, Job.fillTables, h.find]
    cases job.catalog.table? name with
    | none => rfl
    | some table =>
      have havailable := h.available halike table
      have hfill : (job'.fillTable run'.pools (job.plan table) : StateT Journal Draw DataTable) =
          job.fillTable run.pools (job.plan table) := by
        rw [Job.fillTable, Job.fillTable, h.options, TablePlan.feeds_congr havailable]
      dsimp only
      rw [h.plan, h.options, halike.report, hfill]
      split
      · split
        split
        · exact ih (add halike _ _ _) _
        · rfl
      · rfl

/-- The jobs give the same data and the same report, or fail alike. -/
theorem generate (h : job.Parallel job') :
    job'.generate.1.map (fun run => (run.dataset, run.report)) =
      job.generate.1.map fun run => (run.dataset, run.report) := by
  have hstart : job.start.Alike (Kept job job') job'.start :=
    ⟨rfl, by simp [start, h.options, h.removed], fun _ _ => rfl⟩
  have hfill := h.fillTables hstart job.order.tables (Keystream.ofSeed job.options.seed)
  unfold Job.generate
  rw [h.options, h.tables]
  split
  · exact hfill
  · rfl

end Job.Parallel

/-! ## Orders without some references -/

theorem Reaches.of_implied {E G : Set Edge} {a b : String} (h : Reaches E a b)
    (himplied : ∀ e ∈ E, Reaches G e.parent e.child) : Reaches G a b := by
  induction h with
  | refl => exact .refl G a
  | tail _ hl ih => exact ih.trans (himplied _ hl)

/-- Where what is followed leads along the edges that are taken from a list, the same is
followed without them, but for edges that it leads along. -/
theorem Preferring.of_filter {E L F G : Set Edge} {es left left' : List Edge} {keep : Edge → Bool}
    (h : Preferring E es left F) (h' : Preferring L (es.filter keep) left' G) (hG : Acyclic G) (hLE : L ⊆ E)
    (hE : ∀ e ∈ E, Reaches G e.parent e.child)
    (himplied : ∀ e ∈ es, keep e = false → Reaches G e.parent e.child) :
    G ⊆ F ∧ ∀ e ∈ F, Reaches G e.parent e.child := by
  induction h generalizing L left' with
  | done =>
    cases h'
    exact ⟨hLE, hE⟩
  | @follow E F e es left hno _ ih =>
    obtain ⟨hfirst, hrest⟩ := List.forall_mem_cons.1 himplied
    cases hkeep : keep e with
    | false =>
      rw [List.filter_cons_of_neg (by simp [hkeep])] at h'
      exact ih h' (hLE.trans (Set.subset_insert e E)) (Set.forall_mem_insert.2 ⟨hfirst hkeep, hE⟩) hrest
    | true =>
      rw [List.filter_cons_of_pos hkeep] at h'
      cases h' with
      | follow _ h' =>
        have he : Reaches G e.parent e.child := .tail (.refl G _) (h'.subset (Set.mem_insert e L))
        exact ih h' (Set.insert_subset_insert hLE) (Set.forall_mem_insert.2 ⟨he, hE⟩) hrest
      | leave hr _ => exact absurd (hr.mono hLE) hno
  | @leave E F e es left hr _ ih =>
    obtain ⟨-, hrest⟩ := List.forall_mem_cons.1 himplied
    cases hkeep : keep e with
    | false =>
      rw [List.filter_cons_of_neg (by simp [hkeep])] at h'
      exact ih h' hLE hE hrest
    | true =>
      rw [List.filter_cons_of_pos hkeep] at h'
      cases h' with
      | follow _ h' =>
        -- What leads back over the edge would close a cycle of what is followed without.
        exact absurd (hr.of_implied hE) (hG.not_reaches (h'.subset (Set.mem_insert e L)))
      | leave _ h' => exact ih h' hLE hE hrest

/-- What fewer references ask for stands in the same order. -/
theorem preferences_eq_filter (h : attributes' ⊆ attributes) :
    (catalog.numbering.preferences attributes').keys =
      (catalog.numbering.preferences attributes).keys.filter
        (· ∈ (catalog.numbering.preferences attributes').keys) := by
  refine KeyOrder.eq_of_mem_iff (SortedMap.pairwise_keys _) ((SortedMap.pairwise_keys _).filter _) fun e => ?_
  rw [List.mem_filter, decide_eq_true_eq]
  refine ⟨fun he => ⟨?_, he⟩, And.right⟩
  obtain ⟨hne, hparent, hchild, r, hr, hends⟩ := mem_keys_preferences.1 he
  exact mem_keys_preferences.2 ⟨hne, hparent, hchild, r, h hr, hends⟩

theorem ne_of_followed {e : Edge}
    (he : e ∈ (orderTables catalog keys attributes).followed catalog keys attributes) : e.parent ≠ e.child := by
  rcases he with he | he
  · exact he.1.1
  · exact he.1.1

/-- References that ask for nothing but what is so without them leave the order as it is. -/
theorem tables_eq_of_implied (hsub : attributes' ⊆ attributes)
    (himplied : ∀ e ∈ attributeEdges catalog attributes, e ∉ attributeEdges catalog attributes' →
      Reaches ((orderTables catalog keys attributes').followed catalog keys attributes') e.parent e.child) :
    (orderTables catalog keys attributes').tables = (orderTables catalog keys attributes).tables := by
  have hfull := preferring_orderTables catalog keys attributes
  have hfewer := preferring_orderTables catalog keys attributes'
  have hac := hfewer.acyclic (breaking_keyGraph catalog keys).acyclic
  have hkept : ∀ e ∈ (keyGraph catalog.numbering keys).breakCycles.1.edgeSet,
      Reaches (followedGraph catalog keys attributes').edgeSet e.parent e.child :=
    fun e he => .tail (.refl _ _) (hfewer.subset he)
  rw [preferences_eq_filter hsub] at hfewer
  obtain ⟨hless, hsame⟩ := hfull.of_filter hfewer hac subset_rfl hkept fun e he hnot => by
    rw [decide_eq_false_iff_not, mem_keys_preferences] at hnot
    rw [edgeSet_followedGraph]
    exact himplied e (mem_keys_preferences.1 he) hnot
  rw [edgeSet_followedGraph, edgeSet_followedGraph] at hless hsame
  refine tables_eq_of_arranges ?_ ?_
  · exact (arranges_tables catalog keys attributes').of_implied (fun e he => ne_of_followed he) hsame
  · exact (arranges_tables catalog keys attributes).of_implied (fun e he => ne_of_followed he)
      fun e he => .tail (.refl _ _) (hless he)

/-! ## Runs without the references that do not count -/

theorem parallel_countingReferences
    (htables : (orderTables catalog keys (countingReferences keys attributes)).tables =
      (orderTables catalog keys attributes).tables) :
    (Job.ofSchema catalog keys attributes options).Parallel
      (Job.ofSchema catalog keys (countingReferences keys attributes) options) := by
  have hplan : (Job.ofSchema catalog keys (countingReferences keys attributes) options).plan =
      (Job.ofSchema catalog keys attributes options).plan := by
    funext table
    simp only [Job.plan, Job.ofSchema, attributeTargets_countingReferences]
    rfl
  refine ⟨rfl, hplan, htables, rfl, rfl, fun table c hc target htarget => ⟨?_, ?_⟩⟩
  · obtain ⟨column, -, rfl⟩ := List.mem_map.1 hc
    exact mem_retainedColumns_of_reads htarget
  · rw [← hplan] at hc
    obtain ⟨column, -, rfl⟩ := List.mem_map.1 hc
    exact mem_retainedColumns_of_reads htarget

/-- The tables of a finished run stand in the order of its job. -/
theorem tableNames_of_generate {run : Run} (hd : catalog.Distinct)
    (hrun : (Job.ofSchema catalog keys attributes options).generate.1 = .ok run) :
    run.dataset.tableNames = (orderTables catalog keys attributes).tables :=
  ((Job.progress_of_generate hrun).sound hd nodup_tables).inOrder

/-- **References that do not count affect the data only through the order of tables**: without
them, the same data and the same report come out, or the same fault, if the order is the same,
and where both runs complete, the same data only then. The order is the same if what is
followed without them leads from the table of each target to that of its source already. -/
theorem disregarded_references_only_order (hd : catalog.Distinct) (keys : ForeignKeys)
    (attributes : List Reference) (options : Options) :
    let job := Job.ofSchema catalog keys attributes options
    let counting := countingReferences keys attributes
    let without := Job.ofSchema catalog keys counting options
    (without.order.tables = job.order.tables →
      without.generate.1.map (fun run => (run.dataset, run.report)) =
        job.generate.1.map fun run => (run.dataset, run.report)) ∧
    (∀ run run', job.generate.1 = .ok run → without.generate.1 = .ok run' → run'.dataset = run.dataset →
      without.order.tables = job.order.tables) ∧
    ((∀ e ∈ attributeEdges catalog attributes, e ∉ attributeEdges catalog counting →
        Reaches (without.order.followed catalog keys counting) e.parent e.child) →
      without.order.tables = job.order.tables) := by
  refine ⟨fun htables => (parallel_countingReferences htables).generate, fun run run' hrun hrun' hdata => ?_,
    fun himplied => tables_eq_of_implied (countingReferences_sublist keys attributes).subset himplied⟩
  have hnames := tableNames_of_generate hd hrun
  have hnames' := tableNames_of_generate hd hrun'
  exact hnames'.symm.trans ((congrArg Dataset.tableNames hdata).trans hnames)

/-- The references of `shop` to attributes, and two that do not count: one from its foreign key,
and one from a column that has a later one. -/
def shopWishes : List Reference :=
  [⟨"orders", "user_id", "users", "score"⟩, ⟨"orders", "user_score", "users", "rank"⟩] ++ shopAttributes

theorem shop_runs_alike_without : shop.Distinct ∧ countingReferences shopKeys shopWishes = shopAttributes ∧
    ∃ run run', (Job.ofSchema shop shopKeys shopWishes twoRows).generate.1 = .ok run ∧
      (Job.ofSchema shop shopKeys shopAttributes twoRows).generate.1 = .ok run' ∧ run'.dataset = run.dataset := by
  have hcounting : countingReferences shopKeys shopWishes = shopAttributes := by decide
  obtain ⟨hsame, -, horder⟩ := disregarded_references_only_order shop_distinct shopKeys shopWishes twoRows
  rw [hcounting] at hsame horder
  have htables := horder fun e he hnot => by
    obtain ⟨hne, hparent, hchild, r, hr, htarget, hsource⟩ := he
    have hall : ∀ r ∈ shopWishes, r.targetTable = "users" ∧ r.sourceTable = "orders" := by decide
    obtain ⟨hr, hr'⟩ := hall r hr
    exact absurd ⟨hne, hparent, hchild, _, List.mem_singleton_self _, hr.symm.trans htarget,
      hr'.symm.trans hsource⟩ hnot
  obtain ⟨run', hrun'⟩ := shop_completes
  have hresult := hsame htables
  rw [hrun'] at hresult
  cases hrun : (Job.ofSchema shop shopKeys shopWishes twoRows).generate.1 with
  | error fault =>
    rw [hrun] at hresult
    cases hresult
  | ok run =>
    rw [hrun] at hresult
    exact ⟨shop_distinct, hcounting, run, run', rfl, hrun', congrArg Prod.fst (Except.ok.inj hresult)⟩

/-! ## A reference that does not count and moves a table -/

/-- Makers have a code and a region, and parts take the code of a maker. -/
def workshop : Catalog where
  tables := [⟨"makers", [⟨"code", "int", ⟨[.unique]⟩⟩, ⟨"region", "int", ⟨[]⟩⟩]⟩,
    ⟨"parts", [⟨"maker_code", "boolean", ⟨[]⟩⟩, ⟨"region", "int", ⟨[]⟩⟩]⟩,
    ⟨"regions", [⟨"number", "int", ⟨[]⟩⟩]⟩]
  enums := []

/-- The references of `workshop`, all to attributes. -/
def workshopAttributes : List Reference :=
  [⟨"makers", "region", "regions", "number"⟩, ⟨"parts", "maker_code", "makers", "code"⟩]

/-- The same, with one before them that does not count: the region of a maker is that of a part. -/
def workshopWishes : List Reference := ⟨"makers", "region", "parts", "region"⟩ :: workshopAttributes

theorem workshop_order : orderTables workshop SortedMap.empty workshopWishes =
    ⟨⟨3, 0⟩, ["parts", "regions", "makers"], [], [], [⟨"makers", "parts"⟩]⟩ := by cbv

theorem workshop_order_without : orderTables workshop SortedMap.empty workshopAttributes =
    ⟨⟨3, 0⟩, ["regions", "makers", "parts"], [], [], []⟩ := by cbv

/-- The first cell of the parts, as it is written. -/
def firstPart (run : Run) : Option String :=
  ((run.dataset.table? "parts").bind (·.value? 0 "maker_code")).map Value.csv

/-- A reference that does not count can take the place of one that does in the order: with the
first wish of the workshop, parts have no code of a maker. -/
theorem passed_over_reference_costs_another : workshop.Distinct ∧
    countingReferences SortedMap.empty workshopWishes = workshopAttributes ∧
    ∃ run run', (Job.ofSchema workshop SortedMap.empty workshopWishes twoRows).generate.1 = .ok run ∧
      (Job.ofSchema workshop SortedMap.empty (countingReferences SortedMap.empty workshopWishes)
        twoRows).generate.1 = .ok run' ∧
      firstPart run = some "false" ∧ firstPart run' = some "1" ∧ run.dataset ≠ run'.dataset := by
  have hcounting : countingReferences SortedMap.empty workshopWishes = workshopAttributes := by decide
  have hfull : (Job.ofSchema workshop SortedMap.empty workshopWishes twoRows).generate.1.toOption.map firstPart =
      some (some "false") := by
    rw [Job.ofSchema, workshop_order]
    decide +kernel
  have hwithout : (Job.ofSchema workshop SortedMap.empty workshopAttributes
      twoRows).generate.1.toOption.map firstPart = some (some "1") := by
    rw [Job.ofSchema, workshop_order_without]
    decide +kernel
  obtain ⟨run, hrun, hpart⟩ := exists_ok_of_map hfull
  obtain ⟨run', hrun', hpart'⟩ := exists_ok_of_map hwithout
  refine ⟨⟨by decide, by decide⟩, hcounting, run, run', hrun, hcounting ▸ hrun', hpart, hpart', fun hdata => ?_⟩
  have hsame : firstPart run = firstPart run' := by rw [firstPart, hdata, firstPart]
  rw [hpart, hpart'] at hsame
  exact absurd hsame (by decide)

end SeedData
