/-
Columns that refer to an attribute. When such a column is filled, the attribute's values are
there exactly if the order of tables does not fall back on it (`Job.Filling.fallsBack_iff`):
what the order says before the run and what the run finds in its pools agree. So a column gets
an issue and made-up values exactly where it must, and values of the attribute everywhere else
(`falls_back_exactly_when_it_must`).
-/
import SeedData.Proofs.Preferences
import SeedData.Proofs.UniqueColumns

namespace SeedData

variable {catalog : Catalog} {keys : ForeignKeys} {attributes : List Reference} {options : Options}
  {run before : Run} {table : Table} {earlier later : List String} {filled : DataTable} {c : Column}
  {a : Reference}

/-- A reference from a table to an attribute cannot be followed: there is no such column, it
is one of the same table, or the order left the reference out. -/
def TableOrder.FallsBack (order : TableOrder) (catalog : Catalog) (child : String) (parent : ColumnRef) :
    Prop :=
  catalog.column? parent.table parent.column = none ∨ parent.table = child ∨
    (⟨parent.table, child⟩ : Edge) ∈ order.unordered

theorem source_of_attribute (hkey : keys.get? ⟨table.name, c.name⟩ = none)
    (hlast : (attributes.filter fun r => r.source = ⟨table.name, c.name⟩).getLast? = some a) :
    (Job.ofSchema catalog keys attributes options).source table c =
      .shared a.target (ColumnType.resolve catalog c.dataType) := by
  have htarget : (attributeTargets keys attributes).get? ⟨table.name, c.name⟩ = some a.target := by
    rw [get?_attributeTargets hkey, hlast]
    rfl
  simp [Job.source, Job.ofSchema, sourceOf, hkey, htarget]

/-- When a table is filled, its references to attributes fall back exactly if they lead to the
table itself or find no values. -/
theorem Job.Filling.fallsBack_iff
    (h : (Job.ofSchema catalog keys attributes options).Filling run table earlier before filled)
    (hd : catalog.Distinct) (hrows : options.rows ≠ 0) (ht : table ∈ catalog.tables)
    (hl : (orderTables catalog keys attributes).tables = earlier ++ table.name :: later)
    (ha : a ∈ attributes) (hsource : a.sourceTable = table.name) :
    (orderTables catalog keys attributes).FallsBack catalog table.name a.target ↔
      ¬ (a.target.table ≠ table.name ∧ (before.pools.available? a.target).isSome = true) := by
  have hkept : (Job.ofSchema catalog keys attributes options).retained.contains a.target = true :=
    mem_retainedColumns_of_attribute ha
  have hedge : a.target.table ≠ table.name → (catalog.column? a.target.table a.target.column).isSome →
      (⟨a.target.table, table.name⟩ : Edge) ∈ attributeEdges catalog attributes := fun hne hcol =>
    ⟨hne, Catalog.mem_tableNames_of_column? hcol, List.mem_map_of_mem ht, a, ha, rfl, hsource⟩
  have hbefore := TableOrder.precedes_iff (a := a.target.table) nodup_tables hl
  rw [h.sound.available?_isSome_iff hd hrows, TableOrder.FallsBack]
  constructor
  · rintro (hcol | heq | hun) ⟨hne, -, hmem, hsome⟩
    · exact Option.not_isSome_iff_eq_none.2 hcol hsome
    · exact hne heq
    · exact (precedes_iff_not_mem_unordered (hedge hne hsome)).1 (hbefore.2 hmem) hun
  · intro hno
    by_contra hfalls
    simp only [not_or] at hfalls
    obtain ⟨hcol, hne, hun⟩ := hfalls
    have hsome := Option.isSome_iff_ne_none.2 hcol
    have hprec := (precedes_iff_not_mem_unordered (hedge hne hsome)).2 hun
    exact hno ⟨hne, hkept, hbefore.1 hprec, hsome⟩

/-- **In every run over a text, a column that refers to an attribute and is no foreign key falls
back exactly when it must**: where the column that the last of its references leads to does not
exist, is one of the same table, or is in a table that the order could not put first. Then
exactly one issue says so. Everywhere else there is no such issue, and each cell holds the
value of that column in some row of its table. -/
theorem falls_back_exactly_when_it_must {text : String} {prepared : Prepared}
    (hrun : (generateFromText text options).1 = .ok (prepared, run)) (hrows : options.rows ≠ 0)
    (ht : table ∈ prepared.schema.catalog.tables) (hc : c ∈ table.columns)
    (hfree : ∀ r ∈ prepared.classified.foreignKeys, r.source ≠ ⟨table.name, c.name⟩)
    (hlast : (prepared.classified.attributes.filter fun r =>
      r.source = ⟨table.name, c.name⟩).getLast? = some a) :
    ∃ filled, run.dataset.table? table.name = some filled ∧ filled.rows.size = options.rows.toNat ∧
      (prepared.order.FallsBack prepared.schema.catalog table.name a.target →
        (run.report.about ⟨table.name, c.name⟩).countP (·.code = "attribute_fallback") = 1) ∧
      (¬ prepared.order.FallsBack prepared.schema.catalog table.name a.target →
        (run.report.about ⟨table.name, c.name⟩).countP (·.code = "attribute_fallback") = 0 ∧
        ∃ targetRows, run.dataset.table? a.targetTable = some targetRows ∧ ∀ r < filled.rows.size,
          ∃ i v, filled.value? r c.name = some v ∧ targetRows.value? i a.targetColumn = some v) := by
  obtain ⟨⟨notices, hparse⟩, hprepared, hgenerate⟩ := run_of_generateFromText hrun
  have hd := Dbml.distinct_of_parse hparse
  generalize prepared.schema = schema at *
  subst hprepared
  rw [Prepared.job_ofSchema] at hgenerate
  obtain ⟨earlier, before, filled, hfill, later, hl⟩ := exists_filling hd hgenerate ht
  have hmem := List.mem_filter.1 (List.mem_of_getLast? hlast)
  have hat : a.source = ⟨table.name, c.name⟩ := of_decide_eq_true hmem.2
  have hfalls := hfill.fallsBack_iff hd hrows ht hl hmem.1 (congrArg ColumnRef.table hat)
  have hkey : (Prepared.ofSchema schema).keys.get? ⟨table.name, c.name⟩ = none :=
    ForeignKeys.get?_ofReferences_eq_none hfree
  have hsource : (Job.ofSchema schema.catalog (Prepared.ofSchema schema).keys
      (Prepared.ofSchema schema).classified.attributes options).source table c = .shared a.target _ :=
    source_of_attribute hkey hlast
  have habout := hfill.about hd ht hc
  rw [hsource, Job.options_ofSchema, Source.shortfalls_shared hrows] at habout
  refine ⟨filled, hfill.found, hfill.fills.size, fun hf => ?_, fun hf => ⟨?_, ?_⟩⟩
  · rw [habout, if_neg (hfalls.1 hf)]
    rfl
  · rw [habout, if_pos (not_not.1 (hfalls.not.1 hf))]
    rfl
  · obtain ⟨hne, hsome⟩ := not_not.1 (hfalls.not.1 hf)
    obtain ⟨pool, hpool⟩ := Option.isSome_iff_exists.1 hsome
    obtain ⟨targetRows, hfound, hvalues⟩ := hfill.pool hpool
    refine ⟨targetRows, hfound, fun r hr => ?_⟩
    obtain ⟨rows, chosen, v, hv, hgives⟩ := hfill.fills.exists_cell (hd.columns table ht) hc hr
    rw [hsource, Source.feed_eq_shared_iff.2 ⟨a.target, _, rfl, rfl, hne, hpool⟩] at hgives
    exact ⟨_, v, hv, (hvalues _).trans hgives⟩

/-! ## A forum -/

/-- The text of a schema of two tables that take a number from each other. -/
def forumText : String :=
  "Table posts \x7b\n score int [ref: > users.karma]\n\x7d\n"
    ++ "Table users \x7b\n karma int [ref: > posts.score]\n\x7d\n"

/-- The catalog that `forumText` writes. -/
def forum : Catalog :=
  ⟨[⟨"posts", [⟨"score", "int", ⟨[]⟩⟩]⟩, ⟨"users", [⟨"karma", "int", ⟨[]⟩⟩]⟩], []⟩

/-- The references that `forumText` writes, both to attributes. -/
def forumReferences : List Reference :=
  [⟨"posts", "score", "users", "karma"⟩, ⟨"users", "karma", "posts", "score"⟩]

/-- What follows from the schema of `forumText` for every run. -/
def forumPrepared : Prepared where
  schema := ⟨forum, forumReferences⟩
  classified := ⟨[], forumReferences, []⟩
  keys := SortedMap.empty
  order := ⟨⟨2, 0⟩, ["users", "posts"], [], [], [⟨"posts", "users"⟩]⟩

theorem ofSchema_forum : Prepared.ofSchema ⟨forum, forumReferences⟩ = forumPrepared := by
  have horder : orderTables forum SortedMap.empty forumReferences = forumPrepared.order := by cbv
  show (⟨_, _, _, orderTables forum SortedMap.empty forumReferences⟩ : Prepared) = _
  rw [horder]
  rfl

theorem forum_completes : ∃ run, (generateFromText forumText twoRows).1 = .ok (forumPrepared, run) := by
  obtain ⟨run, hrun⟩ := exists_run_of_isOk
    (by decide +kernel : (forumPrepared.job twoRows).generate.1.isOk = true)
  rw [← ofSchema_forum] at hrun ⊢
  exact ⟨run, generateFromText_of_parse (by decide +kernel) hrun⟩

theorem forum_posts_take_karma : ∃ run, (generateFromText forumText twoRows).1 = .ok (forumPrepared, run) ∧
    (run.report.about ⟨"users", "karma"⟩).countP (·.code = "attribute_fallback") = 1 ∧
    (run.report.about ⟨"posts", "score"⟩).countP (·.code = "attribute_fallback") = 0 ∧
    ∃ posts users, run.dataset.table? "posts" = some posts ∧ posts.rows.size = 2 ∧
      run.dataset.table? "users" = some users ∧
      ∀ r < 2, ∃ i v, posts.value? r "score" = some v ∧ users.value? i "karma" = some v := by
  obtain ⟨run, hrun⟩ := forum_completes
  have hkarma : forumPrepared.order.FallsBack forum "users" ⟨"posts", "score"⟩ :=
    .inr (.inr (List.mem_singleton.2 rfl))
  have hscore : ¬ forumPrepared.order.FallsBack forum "posts" ⟨"users", "karma"⟩ := by
    rintro (hcol | heq | hun)
    · exact absurd hcol (by decide)
    · exact absurd heq (by decide)
    · exact absurd hun (by decide)
  obtain ⟨-, -, -, hfallback, -⟩ := falls_back_exactly_when_it_must hrun (by decide)
    (List.getElem_mem (by decide : 1 < forum.tables.length)) List.mem_cons_self (by decide)
    (by decide : _ = some forumReferences[1])
  obtain ⟨posts, hposts, hsize, -, htake⟩ := falls_back_exactly_when_it_must hrun (by decide)
    (List.getElem_mem (by decide : 0 < forum.tables.length)) List.mem_cons_self (by decide)
    (by decide : _ = some forumReferences[0])
  obtain ⟨hnone, users, husers, hvalues⟩ := htake hscore
  have htwo : posts.rows.size = 2 := hsize
  exact ⟨run, hrun, hfallback hkarma, hnone, posts, users, hposts, htwo, husers,
    fun r hr => hvalues r (htwo ▸ hr)⟩

end SeedData
