/-
Foreign keys lead to rows: a column that refers to another table holds values of that
table's rows, unless the foreign keys between the two were given up or the column that
it names does not exist, and then it is empty and there is an issue
(`foreign_keys_lead_to_rows`).
-/
import SeedData.Proofs.RunHistory

namespace SeedData

variable {catalog : Catalog} {keys : ForeignKeys} {attributes : List Reference} {options : Options}
  {run before : Run} {table : Table} {earlier later : List String} {filled : DataTable} {c : Column}
  {parent : ColumnRef}

/-- The foreign keys from a table to another's column can be followed: they have not been
given up, and there is such a column. -/
def TableOrder.Follows (order : TableOrder) (catalog : Catalog) (child : String) (parent : ColumnRef) :
    Prop :=
  (⟨parent.table, child⟩ : Edge) ∉ order.removed ∧ (catalog.column? parent.table parent.column).isSome

theorem source_of_key (hkey : keys.get? ⟨table.name, c.name⟩ = some parent)
    (hne : parent.table ≠ table.name) : (Job.ofSchema catalog keys attributes options).source table c =
      .parent parent ((orderTables catalog keys attributes).isRemoved parent.table table.name) :=
  sourceOf_eq_parent_iff.2 ⟨hkey, hne, rfl⟩

/-- When a table is filled, its foreign keys that can be followed are those that were not
given up and find values. -/
theorem Job.Filling.follows_iff
    (h : (Job.ofSchema catalog keys attributes options).Filling run table earlier before filled)
    (hd : catalog.Distinct) (hrows : options.rows ≠ 0) (ht : table ∈ catalog.tables)
    (hl : (orderTables catalog keys attributes).tables = earlier ++ table.name :: later)
    (hkey : keys.get? ⟨table.name, c.name⟩ = some parent) (hne : parent.table ≠ table.name) :
    (orderTables catalog keys attributes).Follows catalog table.name parent ↔
      (orderTables catalog keys attributes).isRemoved parent.table table.name = false ∧
        (before.pools.available? parent).isSome = true := by
  rw [TableOrder.Follows, TableOrder.isRemoved_eq_false_iff, h.sound.available?_isSome_iff hd hrows]
  constructor
  · intro hf
    have he : (⟨parent.table, table.name⟩ : Edge) ∈ keyEdges catalog keys :=
      ⟨hne, Catalog.mem_tableNames_of_column? hf.2, List.mem_map_of_mem ht, _, parent, hkey, rfl, rfl⟩
    exact ⟨hf.1, mem_retainedColumns_of_key hkey, parent_mem_before he hf.1 hl, hf.2⟩
  · intro hf
    exact ⟨hf.1, hf.2.2.2⟩

/-- **In every run over a schema, each cell of a foreign key to another table's column
holds the value of that column in some row there**, if the key can be followed, and no
issue says that it has no parent. If it cannot, the column is empty, and exactly one issue
says so. -/
theorem foreign_keys_lead_to_rows (hd : catalog.Distinct) (hrows : options.rows ≠ 0)
    (hrun : (Job.ofSchema catalog keys attributes options).generate.1 = .ok run)
    (ht : table ∈ catalog.tables) (hc : c ∈ table.columns)
    (hkey : keys.get? ⟨table.name, c.name⟩ = some parent) (hne : parent.table ≠ table.name) :
    ∃ filled, run.dataset.table? table.name = some filled ∧
      filled.rows.size = options.rows.toNat ∧
      ((orderTables catalog keys attributes).Follows catalog table.name parent →
        (∃ parentRows, run.dataset.table? parent.table = some parentRows ∧ ∀ r < filled.rows.size,
          ∃ i v, filled.value? r c.name = some v ∧ parentRows.value? i parent.column = some v) ∧
        (run.report.about ⟨table.name, c.name⟩).countP (·.code = "missing_parent_pool") = 0) ∧
      (¬ (orderTables catalog keys attributes).Follows catalog table.name parent →
        (∀ r < filled.rows.size, filled.value? r c.name = some .null) ∧
        (run.report.about ⟨table.name, c.name⟩).countP (·.code = "missing_parent_pool") = 1) := by
  obtain ⟨earlier, before, filled, hfill, later, hl⟩ := exists_filling hd hrun ht
  have hsource : (Job.ofSchema catalog keys attributes options).source table c = .parent parent _ :=
    source_of_key hkey hne
  have hfollows := hfill.follows_iff hd hrows ht hl hkey hne
  have habout := hfill.about hd ht hc
  rw [hsource, Job.options_ofSchema, Source.shortfalls_parent hrows] at habout
  obtain ⟨left, right, hcols⟩ := List.append_of_mem hc
  have hcell : ∀ r < filled.rows.size, ∃ rows chosen v, filled.value? r c.name = some v ∧
      (((Job.ofSchema catalog keys attributes options).source table c).feed before.pools
        ⟨table.name, c.name⟩).Gives options rows chosen v := by
    intro r hr
    obtain ⟨row, chosen, hrow, hfol⟩ := hfill.fills.exists_row hr
    obtain ⟨v, hv, -, hgives⟩ := hfill.fills.cell (hd.columns table ht) hcols hrow hfol
    exact ⟨_, chosen, v, hv, hgives⟩
  rw [hsource] at hcell
  refine ⟨filled, hfill.found, hfill.fills.size, fun hf => ⟨?_, ?_⟩, fun hf => ⟨fun r hr => ?_, ?_⟩⟩
  · obtain ⟨hno, hsome⟩ := hfollows.1 hf
    obtain ⟨pool, hpool⟩ := Option.isSome_iff_exists.1 hsome
    obtain ⟨parentRows, hparent, hvalues⟩ := hfill.pool hpool
    refine ⟨parentRows, hparent, fun r hr => ?_⟩
    obtain ⟨rows, chosen, v, hv, hgives⟩ := hcell r hr
    rw [hno, Source.feed_eq_sample_iff.2 ⟨parent, rfl, rfl, hpool⟩] at hgives
    obtain ⟨i, hi⟩ := hgives
    exact ⟨i, v, hv, (hvalues i).trans hi⟩
  · rw [habout, if_pos (hfollows.1 hf)]
    rfl
  · obtain ⟨rows, chosen, v, hv, hgives⟩ := hcell r hr
    rw [Source.feed_parent_eq_empty (hfollows.not.1 hf)] at hgives
    rw [hv, hgives]
  · rw [habout, if_neg (hfollows.not.1 hf)]
    rfl

theorem shop_orders_lead_to_users :
    ∃ run, (Job.ofSchema shop shopKeys shopAttributes twoRows).generate.1 = .ok run ∧
      ∃ orders users, run.dataset.table? "orders" = some orders ∧ orders.rows.size = 2 ∧
        run.dataset.table? "users" = some users ∧
        (∀ r < 2, ∃ i v, orders.value? r "user_id" = some v ∧ users.value? i "id" = some v) ∧
        (run.report.about ⟨"orders", "user_id"⟩).countP (·.code = "missing_parent_pool") = 0 := by
  obtain ⟨run, hrun⟩ := shop_completes
  have hfollows : (orderTables shop shopKeys shopAttributes).Follows shop "orders" ⟨"users", "id"⟩ := by
    rw [shop_order]
    exact ⟨by decide, by decide⟩
  have hkey : shopKeys.get? ⟨"orders", "user_id"⟩ = some ⟨"users", "id"⟩ := by decide
  obtain ⟨orders, horders, hsize, hlead, -⟩ := foreign_keys_lead_to_rows shop_distinct (by decide) hrun
    (List.mem_cons_self : _ ∈ shop.tables) List.mem_cons_self hkey (by decide)
  obtain ⟨⟨users, husers, hvalues⟩, hnone⟩ := hlead hfollows
  have htwo : orders.rows.size = 2 := hsize
  exact ⟨run, hrun, orders, users, horders, htwo, husers, fun r hr => hvalues r (htwo ▸ hr), hnone⟩

end SeedData
