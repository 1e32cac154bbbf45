/-
Keys draw nothing from the keystream. A column of keys that nothing refers to can therefore be
added anywhere in a table, and a run fills all other columns as before
(`added_keys_change_no_other_column`).

Adding a column moves the ones after it, in the rows and in what refers to earlier rows
(`shifted`). Each function that fills a table gives on the moved columns what it gave before with
the key inserted, so that filling the wider table is filling the narrower and then inserting the
keys (`NewKeys.drawTable`). No other table is filled from them, and so the two runs go on side by
side (`Run.Widened`).
-/
import SeedData.Proofs.DisregardedReferences
import SeedData.Proofs.DraftHistory
import SeedData.Proofs.RunRecords

namespace SeedData

variable {catalog : Catalog} {keys : ForeignKeys} {attributes : List Reference} {options : Options}
  {place k : Nat} {name : String} {type : ColumnType} {base : Date} {row : UInt64} {nullRate : Float}
  {rows : Array (List Value)} {feed : Feed} {feeds : List Feed} {choices : Choices}
  {pools pools' : Pools} {ref : ColumnRef} {table : Table} {c : Column} {job : Job}

/-! ## Places -/

/-- Where a place goes when one more comes in at `place`. -/
def shifted (place k : Nat) : Nat := if k < place then k else k + 1

section Places

variable {α : Type} (l : List α) (v d : α)

theorem getElem?_insertIdx_shifted : (l.insertIdx place v)[shifted place k]? = l[k]? := by
  unfold shifted
  split
  · rename_i hlt
    exact List.getElem?_insertIdx_of_lt hlt
  · rw [List.getElem?_insertIdx_of_gt (by omega), Nat.add_sub_cancel]

theorem getD_insertIdx_shifted : (l.insertIdx place v).getD (shifted place k) d = l.getD k d := by
  rw [List.getD_eq_getElem?_getD, getElem?_insertIdx_shifted, List.getD_eq_getElem?_getD]

end Places

/-- What is found among the others is found where it has gone to. -/
theorem idxOf?_insertIdx {x y : String} (h : x ≠ y) (l : List String) :
    (l.insertIdx place x).idxOf? y = (l.idxOf? y).map (shifted place) := by
  induction l generalizing place with
  | nil =>
    cases place with
    | zero => simp [List.idxOf?_cons, h]
    | succ place => rfl
  | cons z l ih =>
    cases place with
    | zero =>
      have hone : shifted 0 = (· + 1) := rfl
      rw [List.insertIdx_zero, List.idxOf?_cons, if_neg (by simpa using h), hone]
    | succ place =>
      rw [List.insertIdx_succ_cons, List.idxOf?_cons, List.idxOf?_cons, ih]
      split
      · simp [shifted]
      · rw [Option.map_map, Option.map_map]
        refine Option.map_congr fun k _ => ?_
        simp only [Function.comp, shifted, Nat.add_lt_add_iff_right]
        split <;> rfl

theorem nodup_insertIdx {l : List String} (hn : l.Nodup) (h : name ∉ l) : (l.insertIdx place name).Nodup := by
  rcases Nat.lt_or_ge l.length place with hpast | hle
  · rwa [List.insertIdx_of_length_lt hpast]
  · exact (List.perm_insertIdx name l hle).nodup_iff.2 (List.nodup_cons.2 ⟨h, hn⟩)

/-- Different columns of one table have different names. -/
theorem ColumnRef.column_ne {new : ColumnRef} (h : ref ≠ new) (htable : ref.table = new.table) :
    ref.column ≠ new.column := by
  intro hcolumn
  cases ref
  cases new
  exact h (ColumnRef.mk.injEq .. ▸ ⟨htable, hcolumn⟩)

/-! ## Rows -/

/-- The rows with a key at a place of each. -/
def insertKeys (place : Nat) (name : String) (type : ColumnType) (base : Date) (rows : Array (List Value)) :
    Array (List Value) :=
  rows.mapIdx fun i row => row.insertIdx place (type.key name (UInt64.ofNat i) base)

@[simp] theorem size_insertKeys : (insertKeys place name type base rows).size = rows.size := Array.size_mapIdx

theorem insertKeys_push (row : List Value) : insertKeys place name type base (rows.push row) =
    (insertKeys place name type base rows).push
      (row.insertIdx place (type.key name (UInt64.ofNat rows.size) base)) := Array.mapIdx_push

theorem column_insertKeys :
    Pools.column (insertKeys place name type base rows) (shifted place k) = Pools.column rows k := by
  refine Array.ext_getElem? fun i => ?_
  simp only [Pools.column, insertKeys, Array.getElem?_map, Array.getElem?_mapIdx, Option.map_map,
    Function.comp_def, getD_insertIdx_shifted]

/-- The feed when one more column comes in at the place. -/
def Feed.moved (place : Nat) : Feed → Feed
  | earlier column => earlier (shifted place column)
  | feed => feed

theorem earlierValue_insertKeys :
    (earlierValue nullRate (insertKeys place name type base rows) (shifted place k) : Draw Value) =
      earlierValue nullRate rows k := by
  have hvalue : ∀ i, ((insertKeys place name type base rows).getD i []).getD (shifted place k) .null =
      (rows.getD i []).getD k .null := by
    intro i
    rw [Array.getD_eq_getD_getElem?, Array.getD_eq_getD_getElem?, insertKeys, Array.getElem?_mapIdx]
    cases rows[i]? with
    | none => simp
    | some row => exact getD_insertIdx_shifted ..
  have hempty : (insertKeys place name type base rows).isEmpty = rows.isEmpty := by
    rw [Bool.eq_iff_iff, Array.isEmpty_iff_size_eq_zero, Array.isEmpty_iff_size_eq_zero, size_insertKeys]
  unfold earlierValue
  simp only [hvalue, hempty, size_insertKeys, Draw.rely_eq]

/-! ## Rows by draws alone

No issue is reported, and so a pass does the same from whatever place on. -/

theorem linkRow_place (k k' : Nat) : (linkRow nullRate rows k feeds choices : Draw (List Value × Choices)) =
    linkRow nullRate rows k' feeds choices := by
  induction feeds generalizing k k' choices with
  | nil => rfl
  | cons feed feeds ih =>
    have hfeed : (feed.link nullRate rows k choices : Draw (Value × Choices)) =
        feed.link nullRate rows k' choices := by cases feed <;> rfl
    simp only [linkRow, hfeed, ih (k + 1) (k' + 1)]

theorem fillRow_place (k k' : Nat) (linked : List Value) :
    (fillRow base row k feeds linked choices : Draw (List Value)) =
      fillRow base row k' feeds linked choices := by
  induction feeds generalizing k k' linked choices with
  | nil => rfl
  | cons feed feeds ih =>
    have hfeed : ∀ v, (feed.fill base row k v choices : Draw (Value × Choices)) =
        feed.fill base row k' v choices := fun v => by
      cases feed with
      | random type hint issue => cases issue <;> rfl
      | _ => rfl
    simp only [fillRow, hfeed, ih (k + 1) (k' + 1)]

theorem Feed.link_moved :
    ((feed.moved place).link nullRate (insertKeys place name type base rows) k choices :
      Draw (Value × Choices)) = feed.link nullRate rows k choices := by
  cases feed with
  | earlier column => simp only [moved, link, earlierValue_insertKeys]
  | _ => rfl

theorem Feed.fill_moved (v : Value) :
    ((feed.moved place).fill base row k v choices : Draw (Value × Choices)) =
      feed.fill base row k v choices := by
  cases feed <;> rfl

theorem linkRow_moved :
    (linkRow nullRate (insertKeys place name type base rows) k (feeds.map (Feed.moved place)) choices :
      Draw (List Value × Choices)) = linkRow nullRate rows k feeds choices := by
  induction feeds generalizing k choices with
  | nil => rfl
  | cons feed feeds ih => simp only [List.map_cons, linkRow, Feed.link_moved, ih]

/-- The first pass leaves a key for the second. -/
theorem linkRow_key : (linkRow nullRate rows k (feeds.insertIdx place (.key name type)) choices :
      Draw (List Value × Choices)) =
    (fun r => (r.1.insertIdx place .null, r.2)) <$> linkRow nullRate rows k feeds choices := by
  induction feeds generalizing place k choices with
  | nil => cases place <;> simp [linkRow, Feed.link]
  | cons feed feeds ih =>
    cases place with
    | zero =>
      rw [List.insertIdx_zero, linkRow, linkRow_place k (k + 1)]
      simp [Feed.link]
    | succ place => simp [linkRow, ih]

theorem fillRow_moved (linked : List Value) :
    (fillRow base row k (feeds.map (Feed.moved place)) linked choices : Draw (List Value)) =
      fillRow base row k feeds linked choices := by
  induction feeds generalizing k choices linked with
  | nil => rfl
  | cons feed feeds ih => simp only [List.map_cons, fillRow, Feed.fill_moved, ih]

/-- What the first pass has not come to is empty. -/
theorem fillRow_nil : (fillRow base row k feeds [] choices : Draw (List Value)) =
    fillRow base row k feeds [.null] choices := by
  cases feeds <;> rfl

/-- The second pass puts the key in its place, and draws nothing for it. -/
theorem fillRow_key (linked : List Value) :
    (fillRow base row k (feeds.insertIdx place (.key name type)) (linked.insertIdx place .null) choices :
      Draw (List Value)) =
      (·.insertIdx place (type.key name row base)) <$> fillRow base row k feeds linked choices := by
  induction feeds generalizing place k choices linked with
  | nil => cases place <;> simp [fillRow, Feed.fill]
  | cons feed feeds ih =>
    cases place with
    | zero =>
      rw [List.insertIdx_zero, List.insertIdx_zero, fillRow, fillRow_place k (k + 1)]
      simp [Feed.fill]
    | succ place =>
      have hhead : (linked.insertIdx (place + 1) .null).head?.getD .null = linked.head?.getD .null := by
        cases linked <;> rfl
      have htail : ∀ choices, (fillRow base row (k + 1) (feeds.insertIdx place (.key name type))
          (linked.insertIdx (place + 1) .null).tail choices : Draw (List Value)) =
            fillRow base row (k + 1) (feeds.insertIdx place (.key name type))
              (linked.tail.insertIdx place .null) choices := fun choices => by
        cases linked with
        | cons v linked => rfl
        | nil =>
          cases place with
          | zero => exact fillRow_nil
          | succ place => rfl
      simp [fillRow, hhead, htail, ih]

/-- A row of the wider table is one of the narrower with its key. -/
theorem nextRow_insertKeys :
    (nextRow options ((feeds.insertIdx place (.key name type)).map (Feed.moved place))
        (insertKeys place name type options.baseDate rows) : Draw (List Value)) =
      (·.insertIdx place (type.key name (UInt64.ofNat rows.size) options.baseDate)) <$>
        nextRow options feeds rows := by
  simp only [nextRow, linkRow_moved, linkRow_key, fillRow_moved, fillRow_key, size_insertKeys, bind_map_left,
    map_bind]

theorem fillRows_insertKeys (count : Nat) :
    (fillRows options ((feeds.insertIdx place (.key name type)).map (Feed.moved place)) count
        (insertKeys place name type options.baseDate rows) : Draw (Array (List Value))) =
      insertKeys place name type options.baseDate <$> fillRows options feeds count rows := by
  induction count generalizing rows with
  | zero => simp [fillRows]
  | succ count ih => simp only [fillRows, nextRow_insertKeys, bind_map_left, ← insertKeys_push, ih, map_bind]

/-! ## Tables -/

/-- The table with a key at a place of each row. -/
def DataTable.insertKeys (t : DataTable) (place : Nat) (name : String) (type : ColumnType) (base : Date) :
    DataTable :=
  ⟨t.name, t.columns.insertIdx place name, SeedData.insertKeys place name type base t.rows⟩

namespace DataTable

variable {t : DataTable} {column : String}

theorem columnIndex?_insertKeys (h : column ≠ name) :
    (t.insertKeys place name type base).columnIndex? column = (t.columnIndex? column).map (shifted place) :=
  idxOf?_insertIdx (Ne.symm h) t.columns

theorem pool?_insertKeys (h : column ≠ name) :
    (t.insertKeys place name type base).pool? column = t.pool? column := by
  rw [pool?, pool?, columnIndex?_insertKeys h, Option.map_map]
  exact Option.map_congr fun k _ => column_insertKeys

theorem value?_insertKeys (h : column ≠ name) (r : Nat) :
    (t.insertKeys place name type base).value? r column = t.value? r column := by
  rw [value?, value?, columnIndex?_insertKeys h]
  cases t.columnIndex? column with
  | none => rfl
  | some k =>
    simp only [Option.map_some, Option.bind_eq_bind, Option.bind_some, insertKeys, SeedData.insertKeys,
      Array.getElem?_mapIdx, Option.bind_map, Function.comp_def, getElem?_insertIdx_shifted]

theorem isSupported_of_insertKeys (h : (t.insertKeys place name type base).isSupported = true) :
    t.isSupported = true := by
  simp only [isSupported, Array.all_eq_true, List.all_eq_true] at h ⊢
  intro i hi v hv
  refine h i (by simpa [insertKeys] using hi) v ?_
  simpa only [insertKeys, SeedData.insertKeys, Array.getElem_mapIdx] using List.subset_insertIdx _ _ _ hv

/-- The table with the keys, if it is the one that gets them. -/
def withKeys (t : DataTable) (ref : ColumnRef) (place : Nat) (type : ColumnType) (base : Date) : DataTable :=
  if t.name = ref.table then t.insertKeys place ref.column type base else t

variable {new ref : ColumnRef}

@[simp] theorem name_withKeys : (t.withKeys new place type base).name = t.name := by
  unfold withKeys
  split <;> rfl

theorem pool?_withKeys (h : ref ≠ new) (hname : t.name = ref.table) :
    (t.withKeys new place type base).pool? ref.column = t.pool? ref.column := by
  unfold withKeys
  split
  · rename_i hnew
    exact pool?_insertKeys (ColumnRef.column_ne h (hname.symm.trans hnew))
  · rfl

theorem value?_withKeys (h : ref ≠ new) (hname : t.name = ref.table) (r : Nat) :
    (t.withKeys new place type base).value? r ref.column = t.value? r ref.column := by
  unfold withKeys
  split
  · rename_i hnew
    exact value?_insertKeys (ColumnRef.column_ne h (hname.symm.trans hnew)) r
  · rfl

theorem nodup_columns_withKeys (hn : t.columns.Nodup) (h : t.name = new.table → new.column ∉ t.columns) :
    (t.withKeys new place type base).columns.Nodup := by
  unfold withKeys
  split
  · rename_i hnew
    exact nodup_insertIdx hn (h hnew)
  · exact hn

theorem isSupported_of_withKeys (h : (t.withKeys new place type base).isSupported = true) :
    t.isSupported = true := by
  unfold withKeys at h
  split at h
  · exact isSupported_of_insertKeys h
  · exact h

end DataTable

/-! ## Plans -/

/-- The source when one more column comes in at the place. -/
def Source.moved (place : Nat) : Source → Source
  | earlier column => earlier (column.map (shifted place))
  | source => source

theorem Source.feed_moved (source : Source) :
    (source.moved place).feed pools ref = (source.feed pools ref).moved place := by
  cases source with
  | parent target removed =>
    cases h : pools.available? target <;> cases removed <;> simp [moved, feed, h, Feed.moved]
  | earlier column => cases column <;> rfl
  | shared target type =>
    cases h : pools.available? target with
    | none => simp [moved, feed, h, Feed.moved]
    | some pool => by_cases ht : target.table = ref.table <;> simp [moved, feed, h, ht, Feed.moved]
  | key | random => rfl

theorem Source.canWriteKeys_moved (source : Source) (n : Nat) :
    (source.moved place).canWriteKeys name n = source.canWriteKeys name n := by
  cases source <;> rfl

/-- The table with one more column, at a place; past the end there is none. -/
def Table.insertColumn (t : Table) (place : Nat) (c : Column) : Table :=
  { t with columns := t.columns.insertIdx place c }

/-- The pools of all columns but one are the same. -/
def Pools.AlikeBut (new : ColumnRef) (pools pools' : Pools) : Prop :=
  ∀ ref, ref ≠ new → pools'.values? ref = pools.values? ref

/-- A new column of keys for a table of the schema: it is unique, the table has none of its name,
and no foreign key and no reference to an attribute leads from it or to it. -/
structure NewKeys (catalog : Catalog) (keys : ForeignKeys) (attributes : List Reference) (table : Table)
    (c : Column) : Prop where
  found : table ∈ catalog.tables
  unique : (c.isKeyLike || c.settings.isUnique) = true
  new : c.name ∉ table.columns.map (·.name)
  keys : ∀ source target, keys.get? source = some target →
    source ≠ ⟨table.name, c.name⟩ ∧ target ≠ ⟨table.name, c.name⟩
  attributes : ∀ r ∈ attributes, r.source ≠ ⟨table.name, c.name⟩ ∧ r.target ≠ ⟨table.name, c.name⟩

namespace NewKeys

theorem get?_eq_none (h : NewKeys catalog keys attributes table c) :
    keys.get? ⟨table.name, c.name⟩ = none := by
  cases hkey : keys.get? ⟨table.name, c.name⟩ with
  | none => rfl
  | some target => exact absurd rfl (h.keys _ _ hkey).1

/-- The new column is filled with keys. -/
theorem source (h : NewKeys catalog keys attributes table c) (order : TableOrder) :
    sourceOf catalog keys (attributeTargets keys attributes) order table c =
      .key (ColumnType.resolve catalog c.dataType) := by
  have hnone := h.get?_eq_none
  have htargets : (attributeTargets keys attributes).get? ⟨table.name, c.name⟩ = none :=
    (get?_attributeTargets_eq_none_iff hnone).2 fun r hr => (h.attributes r hr).1
  exact sourceOf_eq_key_iff.2 ⟨hnone, htargets, h.unique, rfl⟩

/-- The others are filled as before, but for the places of those in the same table. -/
theorem sourceOf_insertColumn (h : NewKeys catalog keys attributes table c) (order : TableOrder) (d : Column) :
    sourceOf catalog keys (attributeTargets keys attributes) order (table.insertColumn place c) d =
      (sourceOf catalog keys (attributeTargets keys attributes) order table d).moved place := by
  unfold sourceOf
  dsimp only [Table.insertColumn]
  cases hkey : keys.get? ⟨table.name, d.name⟩ with
  | some target =>
    by_cases hself : target.table = table.name
    · -- The column that it refers to is not the new one, and so has only moved.
      have hne : target.column ≠ c.name := fun heq => (h.keys _ _ hkey).2 (by rw [← hself, ← heq])
      simp only [hself, if_true, Source.moved, List.map_insertIdx, idxOf?_insertIdx (Ne.symm hne)]
    · simp only [hself, if_false, Source.moved]
  | none =>
    dsimp only
    split
    · rfl
    · split <;> rfl

theorem ne_of_reads (h : NewKeys catalog keys attributes table c) {order : TableOrder} {t : Table} {d : Column}
    {target : ColumnRef}
    (hreads : target ∈ (sourceOf catalog keys (attributeTargets keys attributes) order t d).reads?) :
    target ≠ ⟨table.name, c.name⟩ := by
  rcases exists_of_reads hreads with ⟨source, hkey⟩ | ⟨r, hr, rfl⟩
  · exact (h.keys _ _ hkey).2
  · exact (h.attributes r hr).2

section Job

variable (h : NewKeys job.catalog job.keys job.attributes table c)
include h

/-- The feeds of the wider table are those of the narrower and the key. -/
theorem feeds_plan (pools : Pools) : (job.plan (table.insertColumn place c)).feeds pools =
    (((job.plan table).feeds pools).insertIdx place
      (.key c.name (ColumnType.resolve job.catalog c.dataType))).map (Feed.moved place) := by
  have hkey : job.source table c = .key (ColumnType.resolve job.catalog c.dataType) := h.source job.order
  have hfeed : (fun d => (job.source (table.insertColumn place c) d).feed pools ⟨table.name, d.name⟩) =
      Feed.moved place ∘ fun d => (job.source table d).feed pools ⟨table.name, d.name⟩ := by
    funext d
    rw [Job.source, h.sourceOf_insertColumn, Source.feed_moved]
    rfl
  calc (job.plan (table.insertColumn place c)).feeds pools
      = (table.columns.insertIdx place c).map
          fun d => (job.source (table.insertColumn place c) d).feed pools ⟨table.name, d.name⟩ :=
        Job.feeds_plan ..
    _ = ((table.columns.insertIdx place c).map
          fun d => (job.source table d).feed pools ⟨table.name, d.name⟩).map (Feed.moved place) := by
        rw [hfeed, List.map_map]
    _ = _ := by
        rw [List.map_insertIdx, ← Job.feeds_plan, hkey]
        rfl

/-- Filling the wider table is filling the narrower and inserting the keys. -/
theorem drawTable (pools : Pools) : job.drawTable pools (table.insertColumn place c) =
    (·.insertKeys place c.name (ColumnType.resolve job.catalog c.dataType) job.options.baseDate) <$>
      job.drawTable pools table := by
  have hrows : (fillRows job.options ((job.plan (table.insertColumn place c)).feeds pools)
        job.options.rows.toNat #[] : Draw (Array (List Value))) =
      insertKeys place c.name (ColumnType.resolve job.catalog c.dataType) job.options.baseDate <$>
        fillRows job.options ((job.plan table).feeds pools) job.options.rows.toNat #[] := by
    rw [h.feeds_plan, ← fillRows_insertKeys]
    rfl
  have hcolumns : (table.insertColumn place c).columns.map (·.name) =
      (table.columns.map (·.name)).insertIdx place c.name := List.map_insertIdx ..
  rw [Job.drawTable_eq, Job.drawTable_eq, hrows, hcolumns, Functor.map_map, Functor.map_map]
  rfl

theorem canWriteKeys {rows : UInt64} (hwide : (job.plan (table.insertColumn place c)).canWriteKeys rows = true) :
    (job.plan table).canWriteKeys rows = true := by
  rw [TablePlan.canWriteKeys, Job.plan_columns, List.all_map, List.all_eq_true] at hwide ⊢
  intro d hd
  have hd' := hwide d (List.subset_insertIdx _ _ _ hd)
  rwa [Function.comp, Job.source, h.sourceOf_insertColumn, Source.canWriteKeys_moved] at hd'

/-- No table is filled from the new column. -/
theorem drawTable_congr (hpools : pools.AlikeBut ⟨table.name, c.name⟩ pools') (t : Table) :
    job.drawTable pools' t = job.drawTable pools t := by
  have hfeeds : (job.plan t).feeds pools' = (job.plan t).feeds pools := by
    refine TablePlan.feeds_congr fun d hd target htarget => ?_
    obtain ⟨d, -, rfl⟩ := List.mem_map.1 hd
    rw [Pools.available?, Pools.available?, hpools target (h.ne_of_reads htarget)]
  rw [Job.drawTable_eq, Job.drawTable_eq, hfeeds]

end Job

end NewKeys

/-! ## Runs -/

theorem Catalog.table?_insertColumn (catalog : Catalog) (table : Table) (place : Nat) (c : Column) (name : String) :
    (catalog.upsert (table.insertColumn place c)).table? name =
      if name = table.name then some (table.insertColumn place c) else catalog.table? name :=
  catalog.table?_upsert (table.insertColumn place c) name

/-- The job with one more column in a table, at a place. -/
def Job.insertColumn (job : Job) (table : Table) (place : Nat) (c : Column) : Job :=
  { job with catalog := job.catalog.upsert (table.insertColumn place c) }

/-- The order of tables is computed as before. -/
theorem Job.ofSchema_insertColumn (h : table ∈ catalog.tables) (c : Column) :
    Job.ofSchema (catalog.upsert (table.insertColumn place c)) keys attributes options =
      (Job.ofSchema catalog keys attributes options).insertColumn table place c := by
  have hnames : (catalog.upsert (table.insertColumn place c)).tableNames = catalog.tableNames := by
    show (Catalog.upsertInto _ _).map _ = _
    rw [Catalog.names_upsertInto]
    exact if_pos (List.mem_map_of_mem h)
  have horder : orderTables (catalog.upsert (table.insertColumn place c)) keys attributes =
      orderTables catalog keys attributes :=
    orderTables_congr (fun name => by rw [hnames]) fun r => Iff.rfl
  rw [Job.ofSchema, horder]
  rfl

theorem Job.columns_drawTable (job : Job) (pools : Pools) (t : Table) (s : Keystream) :
    ((job.drawTable pools t).run s).1.columns = t.columns.map (·.name) := job.names_plan t

theorem Job.plan_insertColumn (job : Job) (table : Table) (place : Nat) (c : Column) :
    (job.insertColumn table place c).plan = job.plan := by
  have hresolve : ColumnType.resolve (job.catalog.upsert (table.insertColumn place c)) =
      ColumnType.resolve job.catalog := ColumnType.resolve_congr rfl
  funext t
  simp only [plan, insertColumn, sourceOf, hresolve]

/-- Two runs, the second with keys in the new column and otherwise the same data, and with the same
pools of all other columns. -/
structure Run.Widened (new : ColumnRef) (place : Nat) (type : ColumnType) (base : Date) (run run' : Run) :
    Prop where
  dataset : run'.dataset.tables = run.dataset.tables.map (·.withKeys new place type base)
  pools : run.pools.AlikeBut new run'.pools

section Widened

variable {new : ColumnRef} {run run' : Run} {retained retained' : SortedSet ColumnRef} {filled : DataTable}

theorem Run.Widened.add (h : run.Widened new place type base run')
    (hretained : ∀ ref, ref ≠ new → retained'.contains ref = retained.contains ref)
    (hn : filled.columns.Nodup) (hnew : filled.name = new.table → new.column ∉ filled.columns)
    (options : Options) (report report' : Report) :
    (run.add options retained filled report).Widened new place type base
      (run'.add options retained' (filled.withKeys new place type base) report') where
  dataset := by
    show run'.dataset.tables ++ [_] = (run.dataset.tables ++ [_]).map _
    rw [h.dataset, List.map_append, List.map_singleton]
  pools ref href := by
    show (run'.pools.ingest _ _).values? ref = (run.pools.ingest _ _).values? ref
    rw [Pools.values?_ingest _ _ hn, Pools.values?_ingest _ _ (DataTable.nodup_columns_withKeys hn hnew),
      hretained ref href, h.pools ref href, DataTable.name_withKeys]
    split
    · rename_i hkept
      rw [DataTable.pool?_withKeys href hkept.1.symm]
    · rfl

/-- The tables of the two runs hold the same in all other columns. -/
theorem Run.Widened.value? (h : run.Widened new place type base run') (href : ref ≠ new) (r : Nat) :
    ((run'.dataset.table? ref.table).bind (·.value? r ref.column)) =
      (run.dataset.table? ref.table).bind (·.value? r ref.column) := by
  have htable : run'.dataset.table? ref.table =
      (run.dataset.table? ref.table).map (·.withKeys new place type base) := by
    simp only [Dataset.table?, h.dataset, List.find?_map, Function.comp_def, DataTable.name_withKeys]
  rw [htable, Option.bind_map]
  cases ht : run.dataset.table? ref.table with
  | none => rfl
  | some t => exact DataTable.value?_withKeys href (Dataset.mem_of_table? ht).2 r

end Widened

namespace NewKeys

variable (h : NewKeys job.catalog job.keys job.attributes table c)
include h

/-- Besides the new column, the same columns are kept. -/
theorem retained (hd : job.catalog.Distinct) (href : ref ≠ ⟨table.name, c.name⟩) :
    (job.insertColumn table place c).retained.contains ref = job.retained.contains ref := by
  have hfound : job.catalog.table? table.name = some table := hd.table?_eq h.found
  rw [Bool.eq_iff_iff]
  refine contains_retainedColumns_iff.trans (Iff.trans (or_congr_left ?_) contains_retainedColumns_iff.symm)
  constructor
  · rintro ⟨t, ht, d, hdt, hkey, rfl⟩
    rcases Catalog.mem_of_mem_upsertInto ht with rfl | ht
    · rcases List.mem_cons.1 (List.insertIdx_subset_cons _ _ _ hdt) with rfl | hdt
      · exact absurd rfl href
      · exact ⟨table, h.found, d, hdt, hkey, rfl⟩
    · exact ⟨t, ht, d, hdt, hkey, rfl⟩
  · rintro ⟨t, ht, d, hdt, hkey, rfl⟩
    have hupsert := job.catalog.table?_insertColumn table place c t.name
    by_cases hname : t.name = table.name
    · obtain rfl : table = t := by
        rw [← Option.some.injEq, ← hfound, ← hname, hd.table?_eq ht]
      rw [if_pos rfl] at hupsert
      exact ⟨_, (Catalog.mem_of_table? hupsert).1, d, List.subset_insertIdx _ _ _ hdt, hkey, rfl⟩
    · rw [if_neg hname, hd.table?_eq ht] at hupsert
      exact ⟨t, (Catalog.mem_of_table? hupsert).1, d, hdt, hkey, rfl⟩

/-- The wider job finds for each name the table that the narrower finds, or the wider table, and
fills it in the same way, but for the keys. -/
theorem exists_table (hd : job.catalog.Distinct) {t' : Table}
    (ht' : (job.insertColumn table place c).catalog.table? name = some t')
    (hpools : pools.AlikeBut ⟨table.name, c.name⟩ pools') :
    ∃ t, job.catalog.table? name = some t ∧
      ((job.plan t').canWriteKeys job.options.rows = true → (job.plan t).canWriteKeys job.options.rows = true) ∧
      (t.name = table.name → c.name ∉ t.columns.map (·.name)) ∧
      job.drawTable pools' t' =
        (·.withKeys ⟨table.name, c.name⟩ place (ColumnType.resolve job.catalog c.dataType)
          job.options.baseDate) <$> job.drawTable pools t := by
  have hupsert := (job.catalog.table?_insertColumn table place c name).symm.trans ht'
  by_cases hname : name = table.name
  · subst hname
    rw [if_pos rfl, Option.some.injEq] at hupsert
    subst hupsert
    refine ⟨table, hd.table?_eq h.found, h.canWriteKeys, fun _ => h.new, ?_⟩
    rw [h.drawTable_congr hpools, h.drawTable, Job.drawTable_eq, Functor.map_map, Functor.map_map]
    simp only [DataTable.withKeys, if_true]
  · rw [if_neg hname] at hupsert
    obtain ⟨-, rfl⟩ := Catalog.mem_of_table? hupsert
    refine ⟨t', hupsert, id, fun heq => absurd heq hname, ?_⟩
    rw [h.drawTable_congr hpools, Job.drawTable_eq, Functor.map_map]
    simp only [DataTable.withKeys, if_neg hname]

/-- Runs that go on over the same names from where they differ in the new column alone end so, too. -/
theorem fillTables (hd : job.catalog.Distinct) {names : List String} {run run' last' : Run} {s : Keystream}
    (hw : run.Widened ⟨table.name, c.name⟩ place (ColumnType.resolve job.catalog c.dataType)
      job.options.baseDate run')
    (hlast : ((job.insertColumn table place c).fillTables names run' s).1 = .ok last') :
    ∃ last, (job.fillTables names run s).1 = .ok last ∧
      last.Widened ⟨table.name, c.name⟩ place (ColumnType.resolve job.catalog c.dataType) job.options.baseDate
        last' := by
  induction names generalizing run run' s with
  | nil =>
    cases hlast
    exact ⟨run, rfl, hw⟩
  | cons name rest ih =>
    obtain ⟨t', ht', hwrite, hsupported, hlast⟩ := Job.fillTables_cons_eq_ok_iff.1 hlast
    obtain ⟨t, ht, hwrites, hnew, hfill⟩ := h.exists_table hd ht' hw.pools
    rw [Job.plan_insertColumn] at hwrite
    -- The keystream has come to the same place in both.
    have hrun : ((job.insertColumn table place c).drawTable run'.pools t').run s =
        (((job.drawTable run.pools t).run s).1.withKeys ⟨table.name, c.name⟩ place
          (ColumnType.resolve job.catalog c.dataType) job.options.baseDate,
          ((job.drawTable run.pools t).run s).2) := by
      rw [Job.drawTable, Job.plan_insertColumn]
      exact congrArg (StateT.run · s) hfill
    rw [hrun] at hsupported hlast
    have hcolumns := job.columns_drawTable run.pools t s
    have hdistinct : ((job.drawTable run.pools t).run s).1.columns.Nodup := by
      rw [hcolumns]
      exact hd.columns t (Catalog.mem_of_table? ht).1
    have hfresh : ((job.drawTable run.pools t).run s).1.name = table.name →
        c.name ∉ ((job.drawTable run.pools t).run s).1.columns := by
      rw [hcolumns]
      exact hnew
    obtain ⟨last, hlast, hwidened⟩ := ih (hw.add (fun ref => h.retained hd) hdistinct hfresh _ _ _) hlast
    exact ⟨last, Job.fillTables_cons_eq_ok_iff.2
      ⟨t, ht, hwrites hwrite, DataTable.isSupported_of_withKeys hsupported, hlast⟩, hwidened⟩

end NewKeys

/-- **Keys draw nothing.** A column of keys that nothing refers to can be added at any place of a
table. If a run over the wider schema completes, then so does one over the schema without the
column, and the data differ in the column of keys alone: each table has the same columns otherwise,
in the same order, and in them the same values. -/
theorem added_keys_change_no_other_column {run' : Run} (place : Nat) (hd : catalog.Distinct)
    (h : NewKeys catalog keys attributes table c)
    (hrun : (Job.ofSchema (catalog.upsert (table.insertColumn place c)) keys attributes options).generate.1 =
      .ok run') :
    ∃ run, (Job.ofSchema catalog keys attributes options).generate.1 = .ok run ∧
      run'.dataset.tables = run.dataset.tables.map (·.withKeys ⟨table.name, c.name⟩ place
        (ColumnType.resolve catalog c.dataType) options.baseDate) ∧
      ∀ ref : ColumnRef, ref ≠ ⟨table.name, c.name⟩ → ∀ r,
        (run'.dataset.table? ref.table).bind (·.value? r ref.column) =
          (run.dataset.table? ref.table).bind (·.value? r ref.column) := by
  rw [Job.ofSchema_insertColumn h.found, Job.generate_eq_ok_iff] at hrun
  obtain ⟨hvalid, hrun⟩ := hrun
  have hstart : (Job.ofSchema catalog keys attributes options).start.Widened ⟨table.name, c.name⟩ place
      (ColumnType.resolve catalog c.dataType) options.baseDate
      ((Job.ofSchema catalog keys attributes options).insertColumn table place c).start := ⟨rfl, fun _ _ => rfl⟩
  have hjob : NewKeys (Job.ofSchema catalog keys attributes options).catalog keys attributes table c := h
  obtain ⟨run, hrun, hwidened⟩ := hjob.fillTables hd hstart hrun
  exact ⟨run, Job.generate_eq_ok_iff.2 ⟨hvalid, hrun⟩, hwidened.dataset, fun ref href => hwidened.value? href⟩

/-- A number for each user. -/
def userNumber : Column := ⟨"number", "int", ⟨[.unique]⟩⟩

theorem shop_takes_user_numbers : NewKeys shop shopKeys shopAttributes shop.tables[1] userNumber where
  found := by decide
  unique := by decide
  new := by decide
  keys := by
    intro source target hkey
    rw [shopKeys, SortedMap.get?_insert] at hkey
    split at hkey
    · rename_i hsource
      obtain rfl := Option.some.inj hkey
      rw [hsource]
      decide
    · cases hkey
  attributes := by decide

theorem shop_runs_alike_with_user_numbers : shop.Distinct ∧
    NewKeys shop shopKeys shopAttributes shop.tables[1] userNumber ∧
    ∃ run run', (Job.ofSchema shop shopKeys shopAttributes twoRows).generate.1 = .ok run ∧
      (Job.ofSchema (shop.upsert (shop.tables[1].insertColumn 0 userNumber)) shopKeys shopAttributes
        twoRows).generate.1 = .ok run' ∧
      ∀ ref : ColumnRef, ref ≠ ⟨"users", "number"⟩ → ∀ r,
        (run'.dataset.table? ref.table).bind (·.value? r ref.column) =
          (run.dataset.table? ref.table).bind (·.value? r ref.column) := by
  have horder : orderTables (shop.upsert (shop.tables[1].insertColumn 0 userNumber)) shopKeys shopAttributes =
    ⟨⟨2, 1⟩, ["users", "orders"], [], [], []⟩ := by cbv
  obtain ⟨run', hrun'⟩ : ∃ run', (Job.ofSchema (shop.upsert (shop.tables[1].insertColumn 0 userNumber)) shopKeys
      shopAttributes twoRows).generate.1 = .ok run' := by
    refine exists_run_of_isOk ?_
    rw [Job.ofSchema, horder]
    decide +kernel
  obtain ⟨run, hrun, -, hsame⟩ := added_keys_change_no_other_column 0 shop_distinct shop_takes_user_numbers hrun'
  exact ⟨shop_distinct, shop_takes_user_numbers, run, run', hrun, hrun', hsame⟩

end SeedData
