/-
Cells that are made up have the types of their columns (`ColumnType.Conforms`), whether they are
keys, which follow from the row, or random. A column makes its cells up if it is no foreign key
and does not mirror an attribute that is there (`made_up_cells_conform`).

The length of a text key is bounded in three ways, one for each way of writing it.
-/
import Mathlib.Data.Nat.Digits.Defs
import SeedData.Proofs.AttributeFallbacks
import SeedData.Proofs.DistinctKeys
import SeedData.Proofs.RowCoherence

namespace SeedData

variable {catalog : Catalog} {keys : ForeignKeys} {attributes : List Reference} {options : Options}
  {run : Run} {table : Table} {c : Column} {t : ColumnType} {base : Date} {row width n : Nat}

/-- What a value of a type looks like in a row of a column, which is a column of keys or not. -/
def ColumnType.Conforms (t : ColumnType) (base : Date) (keyed : Prop) (row : Nat) (v : Value) : Prop :=
  match t.family with
  | .integer => ∃ n, v = .int n ∧ (keyed → n = Int64.ofNat (row + 1)) ∧
      (¬ keyed → 1 ≤ n.toInt ∧ n.toInt ≤ 100000)
  | .decimal => (keyed → ∃ n, v = .int n) ∧ (¬ keyed → ∃ x, v = .float x)
  | .boolean => ∃ b, v = .bool b
  | .date => ∃ days : Nat, v = .date (base.addDays days) ∧ (keyed → days = row) ∧ (¬ keyed → days ≤ 365)
  | .time => ∃ time, v = .time time
  | .timestamp => ∃ (days : Nat) (time : TimeOfDay), v = .timestamp (base.addDays days) time ∧
      (keyed → days = row) ∧ (¬ keyed → days ≤ 365)
  | .uuid => ∃ s, v = .uuid s
  | .json => ∃ s, v = .text s
  | .enumerated labels => ∃ s ∈ labels, v = .text s
  | .text => ∃ s, v = .text s ∧ ∀ n, t.maxLength = some n → s.length ≤ n

/-- The family has dates, alone or with a time. -/
def Family.Dated (f : Family) : Prop := f = .date ∨ f = .timestamp

/-- If the type is enumerated, it has labels. -/
def ColumnType.HasLabels (t : ColumnType) : Prop := ∀ labels, t.family = .enumerated labels → labels ≠ []

theorem ColumnType.Conforms.ne_null {keyed : Prop} {v : Value} (h : t.Conforms base keyed row v) :
    v ≠ .null := by
  rintro rfl
  unfold Conforms at h
  cases hfamily : t.family with
  | decimal =>
    rw [hfamily] at h
    by_cases hkeyed : keyed
    · simpa using h.1 hkeyed
    · simpa using h.2 hkeyed
  | _ => simp [hfamily] at h

/-! ## Types -/

theorem Family.ofName?_ne_enumerated {name : String} {labels : List String} :
    ofName? name ≠ some (enumerated labels) := by
  intro h
  rw [ofName?, Option.map_eq_some_iff] at h
  obtain ⟨entry, hfind, hfamily⟩ := h
  have hmem := List.mem_of_find?_eq_some hfind
  have hnone : ∀ entry ∈ names, entry.1 ≠ enumerated labels := by simp [names]
  exact hnone entry hmem hfamily

theorem Family.labels_of_ofEnum {name : String} {labels : List String}
    (h : ofEnum catalog name = .enumerated labels) :
    ∃ e, catalog.enum? name = some e ∧ e.labels = labels ∧ labels ≠ [] := by
  rw [ofEnum] at h
  split at h
  · rename_i e he
    split at h
    · cases h
    · rename_i hlabels
      cases h
      exact ⟨e, he, rfl, by simpa using hlabels⟩
  · cases h

theorem ColumnType.family_resolve (catalog : Catalog) (written : String) :
    (resolve catalog written).family = Family.ofBase catalog (resolve catalog written).base := by
  simp only [resolve]

/-- The labels of an enumerated type are those of the enumeration of its name, and there are
some. -/
theorem ColumnType.labels_of_resolve {written : String} {labels : List String}
    (h : (resolve catalog written).family = .enumerated labels) :
    ∃ e, catalog.enum? (resolve catalog written).base = some e ∧ e.labels = labels ∧ labels ≠ [] := by
  have hfamily := family_resolve catalog written
  rw [h, Family.ofBase] at hfamily
  cases hname : Family.ofName? (resolve catalog written).base with
  | some family =>
    rw [hname, Option.getD_some] at hfamily
    exact absurd (hname.trans (congrArg some hfamily.symm)) Family.ofName?_ne_enumerated
  | none =>
    rw [hname, Option.getD_none] at hfamily
    exact Family.labels_of_ofEnum hfamily.symm

theorem ColumnType.hasLabels_resolve (catalog : Catalog) (written : String) :
    (resolve catalog written).HasLabels := fun _ hfamily =>
  (labels_of_resolve hfamily).choose_spec.2.2

theorem getD_mem_labels {labels : List String} (h : n < labels.length) : labels.getD n "" ∈ labels := by
  rw [← List.getElem_eq_getD]
  exact List.getElem_mem h

/-! ## Text keys -/

/-- A number of so many digits or fewer has as many as it is padded to. -/
theorem length_padded (hwidth : 0 < width) (hn : n < 10 ^ width) : (padded width n).length = width := by
  have hdigits := Nat.toDigits_length 10 n width hwidth hn
  rw [← String.length_toList, toList_padded, List.length_append, List.length_replicate]
  omega

/-- An ordinal that has started over has no more digits than it may have. -/
theorem restarted_lt_pow {ordinal : UInt64} (hpos : 0 < width) (hwidth : width < 20) :
    ((ordinal - 1) % (UInt64.ofNat (Decimal.pow10 width) - 1) + 1).toNat < 10 ^ width := by
  have hten : 10 ^ 1 ≤ 10 ^ width := Nat.pow_le_pow_right (by decide) hpos
  have hmod := Nat.mod_lt (ordinal - 1).toNat (show 10 ^ width - 1 > 0 by omega)
  rw [UInt64.toNat_add, UInt64.toNat_mod, toNat_lastOrdinal hwidth]
  refine Nat.lt_of_le_of_lt (Nat.mod_le _ _) ?_
  show _ + 1 < _
  omega

/-- A text key is no longer than a text of the type may be. -/
theorem length_keyText_le (column : String) (ordinal : UInt64) :
    (keyText column ordinal (some n)).length ≤ n := by
  unfold keyText
  dsimp only
  split
  · assumption
  · split
    · simp
    · rename_i hzero
      have hpos : 0 < n := Nat.pos_of_ne_zero hzero
      split
      · rename_i hn
        exact (length_padded hpos (restarted_lt_pow hpos hn)).le
      · rename_i hn
        have hpow : 10 ^ 20 ≤ 10 ^ n := Nat.pow_le_pow_right (by decide) (by omega)
        have hword := ordinal.toNat_lt
        exact (length_padded hpos (by omega)).le

theorem length_truncate_le (s : String) : (truncate (some n) s).length ≤ n := by
  simp [truncate]

namespace ColumnType

/-! ## Keys and random values -/

/-- A number of days that a signed word can count. -/
theorem toInt_row (h : row < 2 ^ 63) : (UInt64.ofNat row).toInt64.toInt = row := by
  rw [UInt64.toInt64_ofNat', Int64.toInt_ofNat_of_lt h]

/-- A key conforms to its type. The days of a date are counted with a sign. -/
theorem conforms_key {keyed : Prop} (hkeyed : keyed) (hlabels : t.HasLabels)
    (hdate : t.family.Dated → row < 2 ^ 63) (column : String) :
    t.Conforms base keyed row (t.key column (UInt64.ofNat row) base) := by
  unfold Conforms key
  dsimp only
  cases hfamily : t.family with
  | integer => exact ⟨_, rfl, fun _ => by simp, fun h => absurd hkeyed h⟩
  | decimal => exact ⟨fun _ => ⟨_, rfl⟩, fun h => absurd hkeyed h⟩
  | boolean => exact ⟨_, rfl⟩
  | date =>
    have hdays := toInt_row (hdate (.inl hfamily))
    exact ⟨row, by rw [hdays], fun _ => rfl, fun h => absurd hkeyed h⟩
  | time => exact ⟨_, rfl⟩
  | timestamp =>
    have hdays := toInt_row (hdate (.inr hfamily))
    exact ⟨row, _, by rw [hdays], fun _ => rfl, fun h => absurd hkeyed h⟩
  | uuid => exact ⟨_, rfl⟩
  | json => exact ⟨_, rfl⟩
  | enumerated labels =>
    have hpos : 0 < labels.length := List.length_pos_of_ne_nil (hlabels labels hfamily)
    exact ⟨_, getD_mem_labels (Nat.mod_lt _ hpos), rfl⟩
  | text =>
    refine ⟨_, rfl, fun n hn => ?_⟩
    rw [hn]
    exact length_keyText_le column _

theorem always_randomNumber : Draw.Always randomNumber fun n => 1 ≤ n ∧ n ≤ 100000 :=
  Draw.Always.bind (Draw.always_belowLong (by decide)) fun _ _ => Draw.Always.pure (by omega)

theorem always_randomDate :
    Draw.Always base.random fun d => ∃ days : Nat, d = base.addDays days ∧ days ≤ 365 :=
  Draw.Always.bind (Draw.always_belowLong (by decide)) fun days h => Draw.Always.pure ⟨days, rfl, by omega⟩

/-- A random value conforms to its type, whatever text is given for it. -/
theorem always_random {keyed : Prop} (hkeyed : ¬ keyed) (hlabels : t.HasLabels) (given : Option String) :
    Draw.Always (t.random given base) (t.Conforms base keyed row) := by
  unfold Conforms random
  cases hfamily : t.family with
  | integer =>
    refine Draw.Always.bind always_randomNumber fun n hn => Draw.Always.pure ?_
    have hint : (Int64.ofNat n).toInt = n := Int64.toInt_ofNat_of_lt (by omega)
    exact ⟨_, rfl, fun h => absurd h hkeyed, fun _ => by rw [hint]; omega⟩
  | decimal =>
    refine Draw.Always.bind (Draw.always_true _) fun x _ => Draw.Always.pure ?_
    exact ⟨fun h => absurd h hkeyed, fun _ => ⟨_, rfl⟩⟩
  | boolean =>
    exact Draw.Always.bind (Draw.always_true _) fun b _ => Draw.Always.pure ⟨b, rfl⟩
  | date =>
    refine Draw.Always.bind always_randomDate fun d hd => Draw.Always.pure ?_
    obtain ⟨days, rfl, hdays⟩ := hd
    exact ⟨days, rfl, fun h => absurd h hkeyed, fun _ => hdays⟩
  | time =>
    exact Draw.Always.bind (Draw.always_true _) fun time _ => Draw.Always.pure ⟨time, rfl⟩
  | timestamp =>
    refine Draw.Always.bind always_randomDate fun d hd => ?_
    obtain ⟨days, rfl, hdays⟩ := hd
    exact Draw.Always.bind (Draw.always_true _) fun time _ =>
      Draw.Always.pure ⟨days, time, rfl, fun h => absurd h hkeyed, fun _ => hdays⟩
  | uuid =>
    exact Draw.Always.bind (Draw.always_true _) fun s _ => Draw.Always.pure ⟨s, rfl⟩
  | json =>
    refine Draw.Always.bind (Draw.always_true _) fun word _ => ?_
    exact Draw.Always.bind (Draw.always_true _) fun n _ => Draw.Always.pure ⟨_, rfl⟩
  | enumerated labels =>
    have hpos : 0 < labels.length := List.length_pos_of_ne_nil (hlabels labels hfamily)
    refine Draw.Always.bind (Draw.always_below hpos) fun i hi => ?_
    exact Draw.Always.bind (Draw.always_true _) fun _ _ =>
      Draw.Always.pure ⟨_, getD_mem_labels hi, rfl⟩
  | text =>
    have htext : ∀ s n, t.maxLength = some n → (truncate t.maxLength s).length ≤ n := by
      intro s n hn
      rw [hn]
      exact length_truncate_le s
    cases given with
    | some s => exact Draw.Always.pure ⟨_, rfl, htext s⟩
    | none =>
      exact Draw.Always.bind (Draw.always_true _) fun s _ => Draw.Always.pure ⟨_, rfl, htext s⟩

end ColumnType

/-! ## Dates of keys -/

theorem Date.isSupported_iff {d : Date} :
    d.isSupported = true ↔ first.day ≤ d.day ∧ d.day ≤ last.day := by
  rw [isSupported, Bool.and_eq_true, decide_eq_true_iff, decide_eq_true_iff]

/-- The supported years are no more than so many days. -/
theorem Date.days_lt {d : Date} {i j : Int} (hi : (d.addDays i).isSupported = true)
    (hj : (d.addDays j).isSupported = true) : j - i < 2 ^ 28 := by
  have hfirst : first.day = -96465292 := by decide
  have hlast : last.day = 95026236 := by decide
  simp only [isSupported_iff, addDays, hfirst, hlast] at hi hj
  omega

theorem DataTable.isSupported_value {filled : DataTable} (h : filled.isSupported = true) {r : Nat}
    {column : String} {v : Value} (hv : filled.value? r column = some v) : v.isSupported = true := by
  obtain ⟨index, -, hv⟩ := Option.bind_eq_some_iff.1 hv
  obtain ⟨values, hrow, hv⟩ := Option.bind_eq_some_iff.1 hv
  have hrows := Array.all_eq_true_iff_forall_mem.1 h values (Array.mem_of_getElem? hrow)
  exact List.all_eq_true.1 hrows v (List.mem_of_getElem? hv)

namespace Job.Fills

variable {job : Job} {pools : Pools} {filled : DataTable} {r : Nat}

/-- A table with a column of dates for keys has fewer rows than the calendar has days. -/
theorem row_lt_of_dated (h : job.Fills pools table filled) (hn : (table.columns.map (·.name)).Nodup)
    (hc : c ∈ table.columns) (hsource : job.source table c = .key t) (hdated : t.family.Dated)
    (hsupported : filled.isSupported = true) (hr : r < filled.rows.size) : r < 2 ^ 28 := by
  by_contra hle
  have hday : ∀ i < filled.rows.size, i ≤ 2 ^ 28 →
      (job.options.baseDate.addDays i).isSupported = true := by
    intro i hi hsmall
    have hkey := filled.isSupported_value hsupported (h.key_cell hn hc hsource hi)
    have hdays := ColumnType.toInt_row (show i < 2 ^ 63 by omega)
    rcases hdated with hfamily | hfamily
    · simp only [ColumnType.key, hfamily, hdays] at hkey
      exact hkey
    · simp only [ColumnType.key, hfamily, hdays] at hkey
      exact hkey
  have hspan := Date.days_lt (hday 0 (by omega) (by omega)) (hday (2 ^ 28) (by omega) (by omega))
  omega

end Job.Fills

/-! ## Cells -/

/-- The column is one of keys: its values identify rows or are unique, and it refers to no
attribute. -/
def Table.Keyed (table : Table) (attributes : List Reference) (c : Column) : Prop :=
  (c.isKeyLike || c.settings.isUnique) = true ∧ ∀ a ∈ attributes, a.source ≠ ⟨table.name, c.name⟩

/-- The column is no foreign key, and if it refers to an attribute, none is there to be
mirrored. -/
def MadeUp (catalog : Catalog) (keys : ForeignKeys) (attributes : List Reference) (order : TableOrder)
    (table : Table) (c : Column) : Prop :=
  keys.get? ⟨table.name, c.name⟩ = none ∧
    ∀ other target, ¬ Mirrors catalog keys attributes order table c other target

theorem Table.keyed_of_targets (hkey : keys.get? ⟨table.name, c.name⟩ = none)
    (hnone : (attributeTargets keys attributes).get? ⟨table.name, c.name⟩ = none) :
    ∀ a ∈ attributes, a.source ≠ ⟨table.name, c.name⟩ := by
  rw [get?_attributeTargets hkey, Option.map_eq_none_iff, List.getLast?_eq_none_iff,
    List.filter_eq_nil_iff] at hnone
  simpa using hnone

/-- What a column that makes its cells up is filled with: keys, or random values. -/
theorem Job.Filling.feed_of_madeUp {before : Run} {earlier later : List String} {filled : DataTable}
    (h : (Job.ofSchema catalog keys attributes options).Filling run table earlier before filled)
    (hd : catalog.Distinct) (hrows : options.rows ≠ 0)
    (hl : (orderTables catalog keys attributes).tables = earlier ++ table.name :: later)
    (hmade : MadeUp catalog keys attributes (orderTables catalog keys attributes) table c) :
    let type := ColumnType.resolve catalog c.dataType
    let source := (Job.ofSchema catalog keys attributes options).source table c
    (table.Keyed attributes c ∧ source = .key type) ∨
      (¬ table.Keyed attributes c ∧
        ∃ hint issue, source.feed before.pools ⟨table.name, c.name⟩ = .random type hint issue) := by
  obtain ⟨hkey, hfree⟩ := hmade
  dsimp only
  cases htarget : (attributeTargets keys attributes).get? ⟨table.name, c.name⟩ with
  | none =>
    have hno := Table.keyed_of_targets hkey htarget
    by_cases hunique : (c.isKeyLike || c.settings.isUnique) = true
    · exact .inl ⟨⟨hunique, hno⟩, by simp [Job.source, Job.ofSchema, sourceOf, hkey, htarget, hunique]⟩
    · refine .inr ⟨fun hkeyed => hunique hkeyed.1, hintFor c.name (ColumnType.resolve catalog c.dataType), none, ?_⟩
      simp [Job.source, Job.ofSchema, sourceOf, hkey, htarget, hunique, Source.feed]
  | some target =>
    obtain ⟨a, hlast, rfl⟩ := Option.map_eq_some_iff.1 ((get?_attributeTargets hkey).symm.trans htarget)
    obtain ⟨hmem, hat⟩ := List.mem_filter.1 (List.mem_of_getLast? hlast)
    refine .inr ⟨fun hkeyed => hkeyed.2 a hmem (of_decide_eq_true hat), none,
      some ((Shortfall.noAttribute a.target).issue ⟨table.name, c.name⟩), ?_⟩
    rw [source_of_attribute hkey hlast]
    cases hpool : before.pools.available? a.target with
    | none => simp [Source.feed, hpool]
    | some pool =>
      -- Values that are there would be mirrored.
      have hsame : a.target.table = table.name := by
        by_contra hne
        obtain ⟨-, hearlier, hsome⟩ := (h.sound.available?_isSome_iff hd hrows).1
          (Option.isSome_iff_exists.2 ⟨pool, hpool⟩)
        have hbefore := (TableOrder.precedes_iff nodup_tables hl).2 hearlier
        exact hfree _ a.target ⟨hkey, by rw [hlast]; rfl, rfl, hbefore, hsome⟩
      simp [Source.feed, hpool, hsame]

/-- **Every cell that is made up has the type of its column**: the cells of a column that is no
foreign key and does not mirror an attribute are never empty, and conform to the type that the
schema writes. -/
theorem made_up_cells_conform (hd : catalog.Distinct)
    (hrun : (Job.ofSchema catalog keys attributes options).generate.1 = .ok run)
    (ht : table ∈ catalog.tables) (hc : c ∈ table.columns)
    (hmade : MadeUp catalog keys attributes (orderTables catalog keys attributes) table c) :
    ∃ filled, run.dataset.table? table.name = some filled ∧ filled.rows.size = options.rows.toNat ∧
      ∀ r < filled.rows.size, ∃ v, filled.value? r c.name = some v ∧ v ≠ .null ∧
        (ColumnType.resolve catalog c.dataType).Conforms options.baseDate (table.Keyed attributes c) r v := by
  obtain ⟨earlier, before, filled, hfill, later, hl⟩ := exists_filling hd hrun ht
  have hsound := (Job.progress_of_generate hrun).sound hd nodup_tables
  have hsupported := hsound.supported filled (Dataset.mem_of_table? hfill.found).1
  have hlabels := ColumnType.hasLabels_resolve catalog c.dataType
  have hn := hd.columns table ht
  refine ⟨filled, hfill.found, hfill.fills.size, fun r hr => ?_⟩
  have hrows : options.rows ≠ 0 := by
    intro h0
    rw [hfill.fills.size, Job.options_ofSchema, h0] at hr
    exact Nat.not_lt_zero r hr
  have hfeed := hfill.feed_of_madeUp hd hrows hl hmade
  generalize ColumnType.resolve catalog c.dataType = type at hlabels hfeed ⊢
  rcases hfeed with ⟨hkeyed, hsource⟩ | ⟨hrandom, hint, issue, hfeed⟩
  · have hdate : type.family.Dated → r < 2 ^ 63 := fun hdated =>
      Nat.lt_trans (hfill.fills.row_lt_of_dated hn hc hsource hdated hsupported hr) (by decide)
    have hconforms : type.Conforms options.baseDate (table.Keyed attributes c) r _ :=
      type.conforms_key hkeyed hlabels hdate c.name
    exact ⟨_, hfill.fills.key_cell hn hc hsource hr, hconforms.ne_null, hconforms⟩
  · obtain ⟨chosen, v, hv, hgives⟩ := hfill.fills.cell_after hn hc hr
    rw [hfeed] at hgives
    obtain ⟨given, s, rfl⟩ := hgives
    have hconforms : type.Conforms options.baseDate (table.Keyed attributes c) r _ :=
      type.always_random hrandom hlabels given s
    exact ⟨_, hv, hconforms.ne_null, hconforms⟩

/-! ## Tickets -/

/-- Tickets with a short code of their own and the number of a seat. -/
def tickets : Catalog :=
  ⟨[⟨"tickets", [⟨"code", "varchar(4)", ⟨[.unique]⟩⟩, ⟨"seat", "int", ⟨[]⟩⟩]⟩], []⟩

theorem tickets_complete :
    ∃ run, (Job.ofSchema tickets SortedMap.empty [] twoRows).generate.1 = .ok run := by
  refine exists_run_of_isOk ?_
  have horder : orderTables tickets SortedMap.empty [] = ⟨⟨1, 0⟩, ["tickets"], [], [], []⟩ := by cbv
  rw [Job.ofSchema, horder]
  decide +kernel

theorem tickets_have_codes_and_seats :
    ∃ run, (Job.ofSchema tickets SortedMap.empty [] twoRows).generate.1 = .ok run ∧
      ∃ filled, run.dataset.table? "tickets" = some filled ∧ filled.rows.size = 2 ∧ ∀ r < 2,
        (∃ s, filled.value? r "code" = some (.text s) ∧ s.length ≤ 4) ∧
        ∃ n, filled.value? r "seat" = some (.int n) ∧ 1 ≤ n.toInt ∧ n.toInt ≤ 100000 := by
  obtain ⟨run, hrun⟩ := tickets_complete
  have hd : tickets.Distinct := ⟨by decide, by decide⟩
  have hmade : ∀ c, MadeUp tickets SortedMap.empty [] (orderTables tickets SortedMap.empty [])
      tickets.tables[0] c := fun c => ⟨rfl, fun other target hmirrors => nomatch hmirrors.2.1⟩
  have hcode : ColumnType.resolve tickets "varchar(4)" = ⟨"varchar", .text, some 4, none⟩ := by
    decide +kernel
  have hseat : ColumnType.resolve tickets "int" = ⟨"int", .integer, none, none⟩ := by decide +kernel
  obtain ⟨filled, hfound, hsize, hcodes⟩ := made_up_cells_conform hd hrun
    (List.mem_cons_self : tickets.tables[0] ∈ _) List.mem_cons_self (hmade _)
  obtain ⟨filled', hfound', -, hseats⟩ := made_up_cells_conform hd hrun
    (List.mem_cons_self : tickets.tables[0] ∈ _) (List.mem_cons_of_mem _ List.mem_cons_self) (hmade _)
  obtain rfl : filled = filled' := Option.some.inj (hfound.symm.trans hfound')
  have htwo : filled.rows.size = 2 := hsize
  refine ⟨run, hrun, filled, hfound, htwo, fun r hr => ⟨?_, ?_⟩⟩
  · obtain ⟨v, hv, -, hconforms⟩ := hcodes r (htwo ▸ hr)
    rw [hcode] at hconforms
    obtain ⟨s, rfl, hlength⟩ := hconforms
    exact ⟨s, hv, hlength 4 rfl⟩
  · obtain ⟨v, hv, -, hconforms⟩ := hseats r (htwo ▸ hr)
    rw [hseat] at hconforms
    obtain ⟨n, rfl, -, hrange⟩ := hconforms
    exact ⟨n, hv, hrange fun hkeyed => absurd hkeyed.1 (by decide)⟩

end SeedData
