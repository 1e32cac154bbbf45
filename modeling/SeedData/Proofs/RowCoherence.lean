/-
A row takes what it takes from another table from one row there: the first foreign key
that leads to the table, and all attributes of it (`row_comes_from_one_row`).
-/
import SeedData.Proofs.ReferentialIntegrity

namespace SeedData

variable {catalog : Catalog} {keys : ForeignKeys} {attributes : List Reference} {options : Options}
  {run : Run} {table other : Table}

/-- A column is a foreign key to a column of the other table, and can be followed. -/
def LinksTo (catalog : Catalog) (keys : ForeignKeys) (order : TableOrder) (table : Table) (c : Column)
    (other : String) (target : ColumnRef) : Prop :=
  keys.get? ⟨table.name, c.name⟩ = some target ∧ target.table = other ∧
    order.Follows catalog table.name target

/-- A column is no foreign key, and of the references from it the last leads to a column of
the other table. That table comes before in the order, so its values are there. -/
def Mirrors (catalog : Catalog) (keys : ForeignKeys) (attributes : List Reference) (order : TableOrder)
    (table : Table) (c : Column) (other : String) (target : ColumnRef) : Prop :=
  keys.get? ⟨table.name, c.name⟩ = none ∧
    ((attributes.filter fun r => r.source = ⟨table.name, c.name⟩).getLast?).map Reference.target =
      some target ∧ target.table = other ∧
    order.Precedes other table.name ∧ (catalog.column? target.table target.column).isSome

namespace Job.Filling

variable {before : Run} {earlier later : List String} {filled : DataTable} {c : Column}
  {target : ColumnRef} {name : String}
  (h : (Job.ofSchema catalog keys attributes options).Filling run table earlier before filled)
  (hd : catalog.Distinct) (hrows : options.rows ≠ 0) (ht : table ∈ catalog.tables)
  (hl : (orderTables catalog keys attributes).tables = earlier ++ table.name :: later)

include h hd hrows hl

include ht in
/-- A column that links to a table samples its rows. -/
theorem feed_of_linksTo (hne : name ≠ table.name)
    (hlink : LinksTo catalog keys (orderTables catalog keys attributes) table c name target) :
    ∃ pool, before.pools.available? target = some pool ∧
      ((Job.ofSchema catalog keys attributes options).source table c).feed before.pools
        ⟨table.name, c.name⟩ = .sample name pool := by
  obtain ⟨hkey, rfl, hf⟩ := hlink
  obtain ⟨hno, hsome⟩ := (h.follows_iff hd hrows ht hl hkey hne).1 hf
  obtain ⟨pool, hpool⟩ := Option.isSome_iff_exists.1 hsome
  refine ⟨pool, hpool, Source.feed_eq_sample_iff.2 ⟨target, ?_, rfl, hpool⟩⟩
  rw [source_of_key hkey hne, hno]

include ht in
/-- A column that samples the rows of a table links to it. -/
theorem linksTo_of_feed {pool : Array Value}
    (hfeed : ((Job.ofSchema catalog keys attributes options).source table c).feed before.pools
      ⟨table.name, c.name⟩ = .sample name pool) :
    ∃ target, LinksTo catalog keys (orderTables catalog keys attributes) table c name target := by
  obtain ⟨target, hsource, hname, hpool⟩ := Source.feed_eq_sample_iff.1 hfeed
  obtain ⟨hkey, hne, hno⟩ := sourceOf_eq_parent_iff.1 hsource
  exact ⟨target, hkey, hname,
    (h.follows_iff hd hrows ht hl hkey hne).2 ⟨hno, Option.isSome_iff_exists.2 ⟨pool, hpool⟩⟩⟩

/-- A column that mirrors an attribute of a table shares its values. -/
theorem feed_of_mirrors (hne : name ≠ table.name)
    (hm : Mirrors catalog keys attributes (orderTables catalog keys attributes) table c name target) :
    ∃ pool, before.pools.available? target = some pool ∧
      ((Job.ofSchema catalog keys attributes options).source table c).feed before.pools
        ⟨table.name, c.name⟩ = .shared name pool := by
  obtain ⟨hkey, hlast, rfl, hbefore, hcol⟩ := hm
  obtain ⟨a, ha, rfl⟩ := Option.map_eq_some_iff.1 hlast
  have hmem : a ∈ attributes := (List.mem_filter.1 (List.mem_of_getLast? ha)).1
  have hsome : (before.pools.available? a.target).isSome := (h.sound.available?_isSome_iff hd hrows).2
    ⟨mem_retainedColumns_of_attribute hmem, (TableOrder.precedes_iff nodup_tables hl).1 hbefore, hcol⟩
  obtain ⟨pool, hpool⟩ := Option.isSome_iff_exists.1 hsome
  have htarget : (attributeTargets keys attributes).get? ⟨table.name, c.name⟩ = some a.target := by
    rw [get?_attributeTargets hkey, hlast]
  have hsource : (Job.ofSchema catalog keys attributes options).source table c =
      .shared a.target (ColumnType.resolve catalog c.dataType) := by
    simp [Job.source, Job.ofSchema, sourceOf, hkey, htarget]
  exact ⟨pool, hpool, Source.feed_eq_shared_iff.2 ⟨a.target, _, hsource, rfl, hne, hpool⟩⟩

end Job.Filling

/-- **Each row of a table has one row of another table that it goes back to**: the first
foreign key that leads there and can be followed holds the value of that row, and so does
every column that mirrors an attribute. No pool of the other table ends before the row. -/
theorem row_comes_from_one_row (hd : catalog.Distinct)
    (hrun : (Job.ofSchema catalog keys attributes options).generate.1 = .ok run)
    (ht : table ∈ catalog.tables) (ho : other ∈ catalog.tables) (hne : other.name ≠ table.name) :
    ∃ filled otherRows, run.dataset.table? table.name = some filled ∧
      run.dataset.table? other.name = some otherRows ∧ filled.rows.size = options.rows.toNat ∧
      ∀ r < filled.rows.size, ∃ i < otherRows.rows.size,
        (∀ left c right target, table.columns = left ++ c :: right →
          LinksTo catalog keys (orderTables catalog keys attributes) table c other.name target →
          (∀ d ∈ left, ∀ target',
            ¬ LinksTo catalog keys (orderTables catalog keys attributes) table d other.name target') →
          ∃ v, filled.value? r c.name = some v ∧ otherRows.value? i target.column = some v) ∧
        (∀ c ∈ table.columns, ∀ target,
          Mirrors catalog keys attributes (orderTables catalog keys attributes) table c other.name target →
          ∃ v, filled.value? r c.name = some v ∧ otherRows.value? i target.column = some v) ∧
        ∀ ref pool, ref.table = other.name → run.pools.values? ref = some pool → i < pool.size := by
  obtain ⟨earlier, before, filled, hfill, later, hl⟩ := exists_filling hd hrun ht
  have hsound := (Job.progress_of_generate hrun).sound hd nodup_tables
  obtain ⟨otherRows, hfound⟩ := hsound.exists_table (mem_tables_iff.2 (List.mem_map_of_mem ho))
  have hsize := hsound.size otherRows (Dataset.mem_of_table? hfound).1
  refine ⟨filled, otherRows, hfill.found, hfound, hfill.fills.size, fun r hr => ?_⟩
  have hrows : options.rows ≠ 0 := by
    intro h0
    rw [hfill.fills.size, Job.options_ofSchema, h0] at hr
    exact Nat.not_lt_zero r hr
  obtain ⟨row, chosen, hrow, hfol⟩ := hfill.fills.exists_row hr
  -- What the other table kept of a column are the values of its rows.
  have hvalue : ∀ {target : ColumnRef} {pool : Array Value} {v : Value}, target.table = other.name →
      before.pools.available? target = some pool → pool[chosen other.name]? = some v →
      otherRows.value? (chosen other.name) target.column = some v := by
    intro target pool v htarget hpool hv
    obtain ⟨t, hfound', hvalues⟩ := hfill.pool hpool
    rw [htarget, hfound, Option.some.injEq] at hfound'
    rw [hfound', hvalues, hv]
  refine ⟨chosen other.name, hsize ▸ hfol.below other.name, ?_, ?_, ?_⟩
  · intro left c right target hcols hlink hleft
    obtain ⟨pool, hpool, hfeed⟩ := hfill.feed_of_linksTo hd hrows ht hl hne hlink
    obtain ⟨v, hv, hget, -⟩ := hfill.fills.cell (hd.columns table ht) hcols hrow hfol
    have hfirst := hfol.first (left.map _) other.name pool (right.map _)
      (by rw [Job.feeds_plan, hcols, List.map_append, List.map_cons, hfeed]) ?_
    · rw [List.length_map, hget] at hfirst
      exact ⟨v, hv, hvalue hlink.2.1 hpool hfirst⟩
    · intro pool' hmem
      obtain ⟨d, hd', hfeed'⟩ := List.mem_map.1 hmem
      obtain ⟨target', hlink'⟩ := hfill.linksTo_of_feed hd hrows ht hl hfeed'
      exact hleft d hd' target' hlink'
  · intro c hc target hmirrors
    obtain ⟨left, right, hcols⟩ := List.append_of_mem hc
    obtain ⟨pool, hpool, hfeed⟩ := hfill.feed_of_mirrors hd hrows hl hne hmirrors
    obtain ⟨v, hv, -, hgives⟩ := hfill.fills.cell (hd.columns table ht) hcols hrow hfol
    rw [hfeed] at hgives
    exact ⟨v, hv, hvalue hmirrors.2.2.1 hpool hgives⟩
  · intro ref pool _ hpool
    rw [hsound.even ref pool hpool]
    exact hfol.below other.name

theorem shop_orders_come_from_one_user :
    ∃ run, (Job.ofSchema shop shopKeys shopAttributes twoRows).generate.1 = .ok run ∧
      ∃ orders users, run.dataset.table? "orders" = some orders ∧ run.dataset.table? "users" = some users ∧
        orders.rows.size = 2 ∧ ∀ r < orders.rows.size, ∃ i < users.rows.size,
          (∃ v, orders.value? r "user_id" = some v ∧ users.value? i "id" = some v) ∧
          ∃ v, orders.value? r "user_score" = some v ∧ users.value? i "score" = some v := by
  obtain ⟨run, hrun⟩ := shop_completes
  have hlink : LinksTo shop shopKeys (orderTables shop shopKeys shopAttributes) shop.tables[0]
      ⟨"user_id", "int", ⟨[]⟩⟩ "users" ⟨"users", "id"⟩ := by
    rw [shop_order]
    exact ⟨by decide, rfl, by decide, by decide⟩
  have hmirrors : Mirrors shop shopKeys shopAttributes (orderTables shop shopKeys shopAttributes)
      shop.tables[0] ⟨"user_score", "int", ⟨[]⟩⟩ "users" ⟨"users", "score"⟩ := by
    rw [shop_order]
    exact ⟨by decide, by decide, rfl, ⟨0, 1, by decide, by decide, by decide⟩, by decide⟩
  obtain ⟨orders, users, horders, husers, hsize, hrows⟩ := row_comes_from_one_row shop_distinct
    hrun (List.getElem_mem (by decide : 0 < shop.tables.length))
    (List.getElem_mem (by decide : 1 < shop.tables.length)) (by decide)
  refine ⟨run, hrun, orders, users, horders, husers, hsize, fun r hr => ?_⟩
  obtain ⟨i, hi, hkey, hattribute, -⟩ := hrows r hr
  exact ⟨i, hi, hkey [] _ _ _ rfl hlink (by simp), hattribute _ (by decide) _ hmirrors⟩

end SeedData
