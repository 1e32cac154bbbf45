/-
Declaration order. Tables are numbered as they are declared, so the graph of a schema that
declares the same in another order (`Schema.Reordered`) has other edges, components and ways
through it. But each step of the ordering does what a procedure on names does that has one
outcome (`orderTables_congr`). Else a catalog is read by the names of its tables, and
references by the columns they lead from; so the schema is filled in the same way
(`declaration_order_is_immaterial`).
-/
import Mathlib.Data.List.Sort
import SeedData.Proofs.Preferences
import SeedData.Proofs.UniqueColumns

namespace SeedData

variable {catalog catalog' : Catalog} {keys : ForeignKeys} {refs refs' : List Reference} {job job' : Job}

/-! ## Maps by what they hold -/

/-- Lists that are sorted by a key and have the same members are the same. -/
theorem KeyOrder.eq_of_mem_iff {κ α : Type} [KeyOrder κ] {key : α → κ} {l l' : List α}
    (hl : l.Pairwise fun a b => key a < key b) (hl' : l'.Pairwise fun a b => key a < key b)
    (h : ∀ a, a ∈ l ↔ a ∈ l') : l = l' := by
  have hirrefl : Std.Irrefl fun a b : α => key a < key b := ⟨fun a => KeyOrder.lt_irrefl (key a)⟩
  have hantisymm : Std.Antisymm fun a b : α => key a < key b :=
    ⟨fun a _ hab hba => absurd (KeyOrder.lt_trans hab hba) (KeyOrder.lt_irrefl (key a))⟩
  exact hl.eq_of_mem_iff hl' h

section SortedMap

variable {κ ν : Type} [KeyOrder κ] [DecidableEq κ]

theorem SortedMap.eq_of_get? {m n : SortedMap κ ν} (h : ∀ k, m.get? k = n.get? k) : m = n := by
  refine SortedMap.ext (KeyOrder.eq_of_mem_iff m.sorted n.sorted fun e => ?_)
  rw [← get?_eq_some_iff, ← get?_eq_some_iff, h]

theorem SortedSet.ofList_congr [DecidableLT κ] {l l' : List κ} (h : ∀ k, k ∈ l ↔ k ∈ l') :
    ofList l = ofList l' := by
  refine SortedMap.eq_of_get? fun k => ?_
  have hmem : (ofList l).contains k = true ↔ (ofList l').contains k = true := by
    rw [contains_iff, contains_iff, mem_toList_ofList, mem_toList_ofList, h]
  cases hl : (ofList l).get? k <;> cases hl' : (ofList l').get? k <;>
    simp [SortedMap.contains, hl, hl'] at hmem ⊢

end SortedMap

/-! ## References by source -/

/-- The references from each column are the same, in the same order. -/
def SameBySource (refs refs' : List Reference) : Prop :=
  ∀ ref, refs'.filter (·.source = ref) = refs.filter (·.source = ref)

namespace SameBySource

theorem perm (h : SameBySource refs refs') : refs'.Perm refs := by
  rw [List.perm_iff_count]
  intro r
  calc refs'.count r
      = (refs'.filter (·.source = r.source)).count r := (List.count_filter (by simp)).symm
    _ = (refs.filter (·.source = r.source)).count r := by rw [h]
    _ = refs.count r := List.count_filter (by simp)

theorem filter (h : SameBySource refs refs') (p : Reference → Bool) :
    SameBySource (refs.filter p) (refs'.filter p) := by
  intro ref
  rw [List.filter_comm, h, List.filter_comm]

theorem ofReferences (h : SameBySource refs refs') :
    ForeignKeys.ofReferences refs' = ForeignKeys.ofReferences refs := by
  refine SortedMap.eq_of_get? fun ref => ?_
  rw [ForeignKeys.get?_ofReferences, ForeignKeys.get?_ofReferences, h]

theorem attributeTargets (h : SameBySource refs refs') (keys : ForeignKeys) :
    attributeTargets keys refs' = attributeTargets keys refs := by
  rw [attributeTargets_eq, attributeTargets_eq, (h.filter _).ofReferences]

/-- References from different columns can stand in any order. -/
theorem of_nodup (h : refs'.Perm refs) (hn : (refs.map Reference.source).Nodup) : SameBySource refs refs' := by
  intro ref
  have hany : ∀ l : List Reference, l.Pairwise fun _ _ => True := fun _ => List.pairwise_of_forall fun _ _ => trivial
  refine (h.filter _).eq_of_pairwise (fun a b ha hb _ _ => ?_) (hany _) (hany _)
  simp only [List.mem_filter, decide_eq_true_eq] at ha hb
  exact List.inj_on_of_nodup_map hn (h.mem_iff.1 ha.1) hb.1 (ha.2.trans hb.2.symm)

end SameBySource

/-! ## What a schema is read for -/

/-- Numberings of the same names have the same size. -/
theorem Numbering.size_congr {t t' : Numbering} (h : ∀ name, name ∈ t'.names ↔ name ∈ t.names) :
    t'.size = t.size :=
  ((List.perm_ext_iff_of_nodup t'.nodup t.nodup).2 h).length_eq

theorem Numbering.selfReferences_congr {t t' : Numbering} (h : ∀ name, name ∈ t'.names ↔ name ∈ t.names) :
    t'.selfReferences keys = t.selfReferences keys := by
  simp only [selfReferences_eq, h]

theorem keyEdges_congr (hnames : ∀ name, name ∈ catalog'.tableNames ↔ name ∈ catalog.tableNames) :
    keyEdges catalog' keys = keyEdges catalog keys := by
  simp only [keyEdges, hnames]

theorem keys_preferences_congr (hnames : ∀ name, name ∈ catalog'.tableNames ↔ name ∈ catalog.tableNames)
    (hrefs : ∀ r, r ∈ refs' ↔ r ∈ refs) :
    (catalog'.numbering.preferences refs').keys = (catalog.numbering.preferences refs).keys := by
  refine KeyOrder.eq_of_mem_iff (SortedMap.pairwise_keys _) (SortedMap.pairwise_keys _) fun e => ?_
  simp only [mem_keys_preferences, attributeEdges, Set.mem_ofPred_eq, hnames, hrefs]

/-- **The order of tables does not depend on how they are numbered**: what is found by number is what
the procedures find by name, and each of these has one outcome. -/
theorem orderTables_congr (hnames : ∀ name, name ∈ catalog'.tableNames ↔ name ∈ catalog.tableNames)
    (hrefs : ∀ r, r ∈ refs' ↔ r ∈ refs) : orderTables catalog' keys refs' = orderTables catalog keys refs := by
  have hnumbered : ∀ name, name ∈ catalog'.numbering.names ↔ name ∈ catalog.numbering.names := fun name => by
    rw [Catalog.mem_numbering, Catalog.mem_numbering, hnames]
  have hbreaking := breaking_keyGraph catalog' keys
  rw [keyEdges_congr hnames] at hbreaking
  obtain ⟨hremoved, hkept⟩ := hbreaking.det (breaking_keyGraph catalog keys)
  have hpreferring := preferring_orderTables catalog' keys refs'
  rw [hkept, keys_preferences_congr hnames hrefs] at hpreferring
  obtain ⟨hunordered, hfollowed⟩ := hpreferring.det (preferring_orderTables catalog keys refs)
  have harranged := arranged_orderTables catalog' keys refs'
  rw [hfollowed] at harranged
  have htables := (arranged_orderTables catalog keys refs).det harranged hnumbered
  have hsummary : (orderTables catalog' keys refs').summary = (orderTables catalog keys refs).summary := by
    rw [summary_orderTables, summary_orderTables, keyEdges_congr hnames, Numbering.size_congr hnumbered]
  exact TableOrder.ext hsummary htables hremoved (Numbering.selfReferences_congr hnumbered) hunordered

theorem retainedColumns_congr (htables : ∀ t, t ∈ catalog'.tables ↔ t ∈ catalog.tables)
    (hrefs : ∀ r, r ∈ refs' ↔ r ∈ refs) :
    retainedColumns catalog' keys refs' = retainedColumns catalog keys refs :=
  SortedSet.ofList_congr fun ref => by
    simp only [List.mem_append, List.mem_flatMap, List.mem_map, htables, hrefs]

theorem ColumnType.resolve_congr (h : catalog'.enums = catalog.enums) :
    ColumnType.resolve catalog' = ColumnType.resolve catalog := by
  have hbase : Family.ofBase catalog' = Family.ofBase catalog := by
    funext base
    simp only [Family.ofBase, Family.ofEnum, Catalog.enum?, h]
  unfold ColumnType.resolve
  rw [hbase]

theorem Catalog.table?_congr (hn : catalog.tableNames.Nodup) (h : catalog'.tables.Perm catalog.tables) :
    catalog'.table? = catalog.table? := by
  have hn' : catalog'.tableNames.Nodup := (h.map _).nodup_iff.2 hn
  funext name
  refine Option.ext fun t => ?_
  rw [Catalog.table?_eq_some_iff hn', Catalog.table?_eq_some_iff hn, h.mem_iff]

/-! ## Jobs -/

/-- Two jobs find the same tables in the same order, with the same plan for each, and keep
the same columns. -/
structure Job.Agrees (job job' : Job) : Prop where
  tables : job'.catalog.table? = job.catalog.table?
  plan : job'.plan = job.plan
  retained : job'.retained = job.retained
  order : job'.order = job.order
  options : job'.options = job.options

namespace Job.Agrees

theorem fillTables (h : job.Agrees job') (names : List String) (run : Run) (s : Keystream) :
    job'.fillTables names run s = job.fillTables names run s := by
  have hfill : (job'.fillTable : Pools → TablePlan → StateT Journal Draw DataTable) = job.fillTable := by
    unfold Job.fillTable
    rw [h.options]
  induction names generalizing run s with
  | nil => rfl
  | cons name rest ih =>
    unfold Job.fillTables
    simp only [h.tables, h.plan, h.retained, h.options, hfill, ih]

/-- Jobs that agree give the same, though they may have other things to say about the
references that do not count. -/
theorem generate (h : job.Agrees job') : job'.generate.1 = job.generate.1 := by
  have hstart : job'.start = job.start := by
    unfold Job.start
    rw [h.options, h.order]
  unfold Job.generate
  simp only [h.options, h.order, hstart, h.fillTables]
  split <;> rfl

end Job.Agrees

/-! ## Schemas -/

/-- The schemas declare the same tables and the same references in another order; of the
references from one column, the order is the same. -/
structure Schema.Reordered (s s' : Schema) : Prop where
  tables : s'.catalog.tables.Perm s.catalog.tables
  enums : s'.catalog.enums = s.catalog.enums
  references : SameBySource s.references s'.references

namespace Schema.Reordered

variable {s s' : Schema}

theorem targetKind (h : s.Reordered s') (hn : s.catalog.tableNames.Nodup) :
    s'.catalog.targetKind = s.catalog.targetKind := by
  funext r
  simp only [Catalog.targetKind, Catalog.column?, Catalog.table?_congr hn h.tables]

theorem attributes (h : s.Reordered s') (hn : s.catalog.tableNames.Nodup) :
    SameBySource (Prepared.ofSchema s).classified.attributes (Prepared.ofSchema s').classified.attributes := by
  simp only [Prepared.ofSchema, Catalog.classify, h.targetKind hn]
  exact h.references.filter _

theorem foreignKeys (h : s.Reordered s') (hn : s.catalog.tableNames.Nodup) :
    (Prepared.ofSchema s').keys = (Prepared.ofSchema s).keys := by
  simp only [Prepared.ofSchema, Catalog.classify, h.targetKind hn]
  exact (h.references.filter _).ofReferences

theorem order (h : s.Reordered s') (hn : s.catalog.tableNames.Nodup) :
    (Prepared.ofSchema s').order = (Prepared.ofSchema s).order := by
  show orderTables s'.catalog (Prepared.ofSchema s').keys (Prepared.ofSchema s').classified.attributes = _
  rw [h.foreignKeys hn]
  exact orderTables_congr (fun name => (h.tables.map _).mem_iff) fun r => (h.attributes hn).perm.mem_iff

theorem agrees (h : s.Reordered s') (hn : s.catalog.tableNames.Nodup) (options : Options) :
    ((Prepared.ofSchema s).job options).Agrees ((Prepared.ofSchema s').job options) where
  tables := Catalog.table?_congr hn h.tables
  plan := by
    funext table
    simp only [Job.plan, Prepared.job, sourceOf, h.order hn, h.foreignKeys hn, (h.attributes hn).attributeTargets]
    simp only [Prepared.ofSchema, ColumnType.resolve_congr h.enums]
  retained := by
    show retainedColumns s'.catalog (Prepared.ofSchema s').keys (Prepared.ofSchema s').classified.attributes = _
    rw [h.foreignKeys hn]
    exact retainedColumns_congr (fun t => h.tables.mem_iff) fun r => (h.attributes hn).perm.mem_iff
  order := h.order hn
  options := rfl

end Schema.Reordered

/-- **Declaration order is immaterial**: where tables have different names, a schema that
declares its tables and its references in another order, those from one column in the same,
has the same order of tables, and a run over it gives the same data, pools and report, or
fails alike. -/
theorem declaration_order_is_immaterial {s s' : Schema} (options : Options)
    (hn : s.catalog.tableNames.Nodup) (h : s.Reordered s') :
    (Prepared.ofSchema s').order = (Prepared.ofSchema s).order ∧
      ((Prepared.ofSchema s').job options).generate.1 = ((Prepared.ofSchema s).job options).generate.1 :=
  ⟨h.order hn, (h.agrees hn options).generate⟩

/-- The shop with its references. -/
def shopSchema : Schema :=
  ⟨shop, [⟨"orders", "user_id", "users", "id"⟩, ⟨"orders", "user_score", "users", "score"⟩]⟩

/-- The shop with its tables and its references the other way round. -/
def shopReversed : Schema :=
  ⟨⟨shop.tables.reverse, shop.enums⟩, shopSchema.references.reverse⟩

theorem shopReversed_reorders : shopSchema.Reordered shopReversed where
  tables := List.reverse_perm _
  enums := rfl
  references := .of_nodup (List.reverse_perm _) (by decide)

theorem shop_runs_alike_reversed : shopSchema.catalog.tableNames.Nodup ∧
    shopSchema.Reordered shopReversed ∧
      (Prepared.ofSchema shopReversed).order = (Prepared.ofSchema shopSchema).order ∧
        ∃ run, ((Prepared.ofSchema shopSchema).job twoRows).generate.1 = .ok run ∧
          ((Prepared.ofSchema shopReversed).job twoRows).generate.1 = .ok run := by
  obtain ⟨horder, hrun⟩ :=
    declaration_order_is_immaterial twoRows (by decide : shopSchema.catalog.tableNames.Nodup) shopReversed_reorders
  obtain ⟨run, hshop⟩ := shop_completes
  have hjob : (Prepared.ofSchema shopSchema).job twoRows = Job.ofSchema shop shopKeys shopAttributes twoRows := rfl
  rw [← hjob] at hshop
  exact ⟨by decide, shopReversed_reorders, horder, run, hshop, hrun.trans hshop⟩

end SeedData
