/-
How a run over a text ends (`run_ends_as_documented`): without tables or with a rate that is none
it is refused, and else it ends with data, unless one of its keys is too wide to be written. The
dates that it comes to have to lie in the supported years. On the way to its end, nothing else
stops it (`Guarded.generate_eq`).
-/
import SeedData.Proofs.DeclarationOrder
import SeedData.Proofs.SupportedDates
import SeedData.Proofs.WrittenSchemas

namespace SeedData

variable {job : Job} {run : Run} {names rest : List String} {table : Table} {s : Keystream}
  {catalog : Catalog} {keys : ForeignKeys} {attributes : List Reference} {options : Options}
  {text : String} {schema : Schema}

/-- The keys of all tables can be written. -/
def Job.WritesKeys (job : Job) : Prop :=
  ∀ table ∈ job.catalog.tables, (job.plan table).canWriteKeys job.options.rows = true

instance (job : Job) : Decidable job.WritesKeys :=
  inferInstanceAs (Decidable (∀ table ∈ job.catalog.tables, _ = true))

/-! ## Tables -/

namespace Job

/-- Where the keys of the next table can be written, it is filled. -/
theorem fillTables_step (hd : job.catalog.Distinct) (hfit : job.options.DatesFit)
    (h : run.Sound job names) (ht : table ∈ job.catalog.tables) (hnew : table.name ∉ names)
    (hw : (job.plan table).canWriteKeys job.options.rows = true) (rest : List String) (s : Keystream) :
    ∃ next s', next.Sound job (names ++ [table.name]) ∧
      (job.fillTables (table.name :: rest) run s).1 = (job.fillTables rest next s').1 := by
  have hfills := always_fillTable h.even table s
  have hsupported := hfills.isSupported hfit h.supportedPools
  refine ⟨_, ((job.drawTable run.pools table).run s).2, h.add hd ht hnew hfills hsupported, ?_⟩
  rw [fillTables_cons (hd.table?_eq ht), if_pos hw, if_pos hsupported]

theorem fillTables_ok (hd : job.catalog.Distinct) (hfit : job.options.DatesFit) (h : run.Sound job names)
    (hn : (names ++ rest).Nodup) (hin : ∀ name ∈ rest, name ∈ job.catalog.tableNames) (hw : job.WritesKeys) :
    ∃ run', (job.fillTables rest run s).1 = .ok run' := by
  induction rest generalizing run names s with
  | nil => exact ⟨run, rfl⟩
  | cons name rest ih =>
    obtain ⟨table, ht, rfl⟩ := List.mem_map.1 (hin name List.mem_cons_self)
    have hnew := not_mem_of_nodup hn
    obtain ⟨next, s', hnext, heq⟩ := fillTables_step hd hfit h ht hnew (hw table ht) rest s
    rw [heq]
    rw [List.append_cons] at hn
    exact ih hnext hn fun name hmem => hin name (List.mem_cons_of_mem _ hmem)

theorem fillTables_tooWide (hd : job.catalog.Distinct) (hfit : job.options.DatesFit)
    (h : run.Sound job names) (hn : (names ++ rest).Nodup) (hin : ∀ name ∈ rest, name ∈ job.catalog.tableNames)
    (hno : ∃ table ∈ job.catalog.tables, table.name ∈ rest ∧
      (job.plan table).canWriteKeys job.options.rows = false) :
    (job.fillTables rest run s).1 = .error .keyTooWide := by
  induction rest generalizing run names s with
  | nil => simp at hno
  | cons name rest ih =>
    obtain ⟨table, ht, rfl⟩ := List.mem_map.1 (hin name List.mem_cons_self)
    have hnew := not_mem_of_nodup hn
    cases hw : (job.plan table).canWriteKeys job.options.rows with
    | false =>
      rw [fillTables_cons (hd.table?_eq ht), hw]
      rfl
    | true =>
      obtain ⟨next, s', hnext, heq⟩ := fillTables_step hd hfit h ht hnew hw rest s
      rw [heq]
      rw [List.append_cons] at hn
      refine ih hnext hn (fun name hmem => hin name (List.mem_cons_of_mem _ hmem)) ?_
      obtain ⟨other, ho, hname, hno⟩ := hno
      refine ⟨other, ho, ?_, hno⟩
      rcases List.mem_cons.1 hname with hsame | hmem
      · obtain rfl := List.inj_on_of_nodup_map hd.tables ho ht hsame
        rw [hw] at hno
        cases hno
      · exact hmem

/-- Tables of the schema are filled, or a fault breaks the run off. -/
theorem breaksOff_of_fillTables {fault : Fault} (hin : ∀ name ∈ rest, name ∈ job.catalog.tableNames)
    (h : (job.fillTables rest run s).1 = .error fault) : fault.breaksOff = true := by
  induction rest generalizing run s with
  | nil => cases h
  | cons name rest ih =>
    cases htable : job.catalog.table? name with
    | none =>
      obtain ⟨table, ht, hname⟩ := List.mem_map.1 (hin name List.mem_cons_self)
      exact absurd hname (by simpa using List.find?_eq_none.1 htable table ht)
    | some table =>
      rw [fillTables_cons htable] at h
      split at h
      · split at h
        · exact ih (fun name hmem => hin name (List.mem_cons_of_mem _ hmem)) h
        · cases h
          rfl
      · cases h
        rfl

end Job

/-! ## Runs over a schema -/

theorem generate_of_invalid (hinvalid : options.isValid = false) :
    (Job.ofSchema catalog keys attributes options).generate.1 =
      .error (.invalidNullRate options.nullRate) := by
  unfold Job.generate
  rw [Job.options_ofSchema, hinvalid]
  rfl

section Schema

variable (hvalid : options.isValid = true)

include hvalid

theorem generate_eq_fillTables :
    (Job.ofSchema catalog keys attributes options).generate.1 =
      ((Job.ofSchema catalog keys attributes options).fillTables (orderTables catalog keys attributes).tables
        (Job.ofSchema catalog keys attributes options).start (Keystream.ofSeed options.seed)).1 := by
  unfold Job.generate
  rw [if_pos (show (Job.ofSchema catalog keys attributes options).options.isValid = true from hvalid)]
  rfl

variable (hd : catalog.Distinct) (hfit : options.DatesFit)

include hd hfit

theorem generate_ok (hw : (Job.ofSchema catalog keys attributes options).WritesKeys) :
    ∃ run, (Job.ofSchema catalog keys attributes options).generate.1 = .ok run := by
  rw [generate_eq_fillTables hvalid]
  exact Job.fillTables_ok hd hfit (Run.sound_start _) nodup_tables (fun _ hmem => mem_tables_iff.1 hmem) hw

theorem generate_tooWide (hno : ¬ (Job.ofSchema catalog keys attributes options).WritesKeys) :
    (Job.ofSchema catalog keys attributes options).generate.1 = .error .keyTooWide := by
  rw [generate_eq_fillTables hvalid]
  refine Job.fillTables_tooWide hd hfit (Run.sound_start _) nodup_tables
    (fun _ hmem => mem_tables_iff.1 hmem) ?_
  simp only [Job.WritesKeys, not_forall, Bool.not_eq_true] at hno
  obtain ⟨table, ht, hno⟩ := hno
  exact ⟨table, ht, mem_tables_iff.2 (List.mem_map_of_mem ht), hno⟩

end Schema

/-- A run that gives no data has a rate that is none, or is broken off. -/
theorem generate_error {fault : Fault}
    (h : (Job.ofSchema catalog keys attributes options).generate.1 = .error fault) :
    (options.isValid = false ∧ fault = .invalidNullRate options.nullRate) ∨
      (options.isValid = true ∧ fault.breaksOff = true) := by
  cases hvalid : options.isValid with
  | true =>
    rw [generate_eq_fillTables hvalid] at h
    exact .inr ⟨rfl, Job.breaksOff_of_fillTables (fun _ hmem => mem_tables_iff.1 hmem) h⟩
  | false =>
    rw [generate_of_invalid hvalid] at h
    cases h
    exact .inl ⟨rfl, rfl⟩

/-! ## Runs over a text -/

theorem generateFromText_of_schema (hparse : (Dbml.parse text).1 = some schema) :
    (generateFromText text options).1 = ((Prepared.ofSchema schema).job options).generate.1.map fun run =>
      (Prepared.ofSchema schema, run) := by
  unfold generateFromText
  split
  · rename_i heq
    rw [heq] at hparse
    cases hparse
  · rename_i heq
    rw [heq] at hparse
    cases hparse
    rfl

theorem generateFromText_error_iff (hparse : (Dbml.parse text).1 = some schema) {fault : Fault} :
    (generateFromText text options).1 = .error fault ↔
      ((Prepared.ofSchema schema).job options).generate.1 = .error fault := by
  rw [generateFromText_of_schema hparse]
  cases ((Prepared.ofSchema schema).job options).generate.1 with
  | ok run => simp [Except.map]
  | error f => simp [Except.map]

theorem Dbml.parse_eq_none_iff : (parse text).1 = none ↔ (draft text.toList).catalog.tables = [] := by
  rw [parse_of_silent rfl]
  split
  · rename_i hempty
    exact iff_of_true rfl (List.isEmpty_iff.1 hempty)
  · rename_i hsome
    exact iff_of_false (by simp) fun hnil => hsome (List.isEmpty_iff.2 hnil)

theorem Dbml.distinct_of_schema (hparse : (parse text).1 = some schema) : schema.catalog.Distinct :=
  distinct_of_parse (Prod.ext hparse rfl : parse text = (some schema, (parse text).2))

/-- **Every run over a text ends in a way that is accounted for.** It finds no tables exactly if
there are none. Otherwise it refuses the rate exactly if it is not a number from zero to one, and
meets a step that is not defined exactly if it breaks off at a key that is too wide. Where the
dates that it comes to lie in the supported years, it ends with data if all keys can be written,
and breaks off if not. -/
theorem run_ends_as_documented (text : String) (options : Options) :
    ((generateFromText text options).1 = .error .noTables ↔
      (Dbml.draft text.toList).catalog.tables = []) ∧
    ∀ schema, (Dbml.parse text).1 = some schema →
      (∀ rate, (generateFromText text options).1 = .error (.invalidNullRate rate) ↔
        ¬ (0.0 ≤ options.nullRate ∧ options.nullRate ≤ 1.0) ∧ rate = options.nullRate) ∧
      (Guarded.generate ((Prepared.ofSchema schema).job options) = none ↔
        (generateFromText text options).1 = .error .keyTooWide) ∧
      (0.0 ≤ options.nullRate ∧ options.nullRate ≤ 1.0 → options.DatesFit →
        (((Prepared.ofSchema schema).job options).WritesKeys →
          ∃ run, (generateFromText text options).1 = .ok (Prepared.ofSchema schema, run) ∧
            Guarded.generate ((Prepared.ofSchema schema).job options) = some (.ok run)) ∧
        (¬ ((Prepared.ofSchema schema).job options).WritesKeys →
          (generateFromText text options).1 = .error .keyTooWide)) := by
  have hvalid : options.isValid = true ↔ 0.0 ≤ options.nullRate ∧ options.nullRate ≤ 1.0 := by
    simp [Options.isValid]
  refine ⟨⟨fun h => ?_, fun h => ?_⟩, fun schema hparse => ?_⟩
  · rw [← Dbml.parse_eq_none_iff]
    by_contra hsome
    obtain ⟨schema, hparse⟩ := Option.ne_none_iff_exists'.1 hsome
    rw [generateFromText_error_iff hparse, Prepared.job_ofSchema] at h
    rcases generate_error h with ⟨-, hfault⟩ | ⟨-, hfault⟩
    · cases hfault
    · cases hfault
  · have hnone := Dbml.parse_eq_none_iff.2 h
    unfold generateFromText
    split
    · rfl
    · rename_i heq
      rw [heq] at hnone
      cases hnone
  have hd := Dbml.distinct_of_schema hparse
  have hguarded : Guarded.generate ((Prepared.ofSchema schema).job options) = _ :=
    Guarded.generate_eq hd nodup_tables
  refine ⟨fun rate => ?_, ?_, fun hrate hfit => ⟨fun hw => ?_, fun hno => ?_⟩⟩
  · rw [generateFromText_error_iff hparse, Prepared.job_ofSchema, ← hvalid]
    constructor
    · intro h
      rcases generate_error h with ⟨hinvalid, hfault⟩ | ⟨-, hfault⟩
      · exact ⟨by simp [hinvalid], Fault.invalidNullRate.inj hfault⟩
      · cases hfault
    · rintro ⟨hinvalid, rfl⟩
      exact generate_of_invalid (Bool.not_eq_true _ ▸ hinvalid)
  · rw [hguarded, Guarded.unlessTooWide_eq_none_iff, generateFromText_error_iff hparse]
  · obtain ⟨run, hrun⟩ := generate_ok (hvalid.2 hrate) hd hfit hw
    rw [Prepared.job_ofSchema, hrun] at hguarded
    exact ⟨run, generateFromText_of_parse hparse hrun, hguarded⟩
  · exact (generateFromText_error_iff hparse).2 (generate_tooWide (hvalid.2 hrate) hd hfit hno)

/-- The text of `tickets`. -/
def ticketsText : String := "Table tickets \x7b\n code varchar(4) [unique]\n seat int\n\x7d\n"

theorem tickets_text_completes :
    ∃ run, (generateFromText ticketsText twoRows).1 = .ok (Prepared.ofSchema ⟨tickets, []⟩, run) ∧
      Guarded.generate ((Prepared.ofSchema ⟨tickets, []⟩).job twoRows) = some (.ok run) := by
  obtain ⟨-, hends⟩ := run_ends_as_documented ticketsText twoRows
  obtain ⟨-, -, hcompletes⟩ := hends ⟨tickets, []⟩ (by decide +kernel)
  exact (hcompletes (by decide +kernel) ⟨by decide +kernel, by decide +kernel⟩).1 (by decide +kernel)

/-! ## A key that is too wide -/

/-- A unique column with a name of so many letters, whose texts may have 65536 characters. -/
def wideColumn (letters : Nat) : Column :=
  ⟨String.ofList (List.replicate letters 'a'), "varchar(65536)", ⟨[.unique]⟩⟩

/-- A table of a wide column. -/
def wideTable (letters : Nat) : Table := ⟨"t", [wideColumn letters]⟩

/-- A schema of a table of a wide column. -/
def wide (letters : Nat) : Schema := ⟨⟨[wideTable letters], []⟩, []⟩

example : Dbml.write (wide 3) = "Table t \x7b\n\"aaa\" varchar(65536) [unique]\n\x7d\n" := by decide +kernel

/-- One row of each table. -/
def oneRow : Options := { Options.default with rows := 1 }

variable {letters : Nat}

theorem canonical_wideColumn (hpos : 0 < letters) : Dbml.CanonicalColumn (wideColumn letters) where
  quotable := by
    have hletter : ∀ c ∈ List.replicate letters 'a', c = 'a' := fun c hc => List.eq_of_mem_replicate hc
    rw [Dbml.quotable_iff, wideColumn, String.toList_ofList]
    refine ⟨by simp; omega, Text.trim_eq_self ?_ ?_, ?_, ?_⟩
    · intro c hc
      rw [hletter c (List.mem_of_mem_head? hc)]
      decide
    · intro c hc
      rw [hletter c (List.mem_of_mem_getLast? hc)]
      decide
    · exact fun hmem => absurd (hletter _ hmem) (by decide)
    · exact fun hmem => absurd (hletter _ hmem) (by decide)
  typeNonempty := (by decide : "varchar(65536)".toList ≠ [])
  typeChars := (by decide +kernel : "varchar(65536)".toList.all Dbml.isTypeChar = true)
  distinct := (by decide : [Setting.unique].Nodup)
  flags := (by decide : ∀ s ∈ [Setting.unique], s.isFlag = true)

theorem canonical_wide (hpos : 0 < letters) : Dbml.Canonical (wide letters) where
  nonempty := List.cons_ne_nil _ _
  enums := rfl
  distinct := List.nodup_singleton _
  tables := by
    intro t ht
    obtain rfl := List.mem_singleton.1 ht
    refine ⟨(by decide +kernel : Identifier.normalize "t" = "t"), List.nodup_singleton _, fun c hc => ?_⟩
    obtain rfl := List.mem_singleton.1 hc
    exact canonical_wideColumn hpos
  sources := fun _ hr => absurd hr List.not_mem_nil
  targets := fun _ hr => absurd hr List.not_mem_nil

theorem parse_wide (hpos : 0 < letters) :
    (Dbml.parse (Dbml.write (wide letters))).1 = some (wide letters) := by
  have hcanonical := canonical_wide hpos
  have hdraft : (Dbml.draft (Dbml.write (wide letters)).toList).silent =
      (Dbml.written (wide letters).catalog.tables []).silent := Dbml.draft_write hcanonical
  rw [Dbml.parse_of_silent hdraft]
  exact congrArg some (Dbml.schema_written hcanonical)

theorem resolve_wideColumn : ColumnType.resolve (wide letters).catalog (wideColumn letters).dataType =
    ⟨"varchar", .text, some 65536, none⟩ := by
  have hempty : ColumnType.resolve (wide letters).catalog = ColumnType.resolve ⟨[], []⟩ :=
    ColumnType.resolve_congr rfl
  have hresolve : ColumnType.resolve ⟨[], []⟩ "varchar(65536)" = ⟨"varchar", .text, some 65536, none⟩ := by
    decide +kernel
  rw [hempty]
  exact hresolve

/-- The key of a long name does not fit, and the ordinal alone has too many digits. -/
theorem wide_not_writesKeys (hlong : 65531 ≤ letters) :
    ¬ ((Prepared.ofSchema (wide letters)).job oneRow).WritesKeys := by
  intro hwrites
  have htable := hwrites (wideTable letters) List.mem_cons_self
  rw [TablePlan.canWriteKeys, Job.plan_columns, List.all_map, List.all_eq_true] at htable
  have hcolumn := htable (wideColumn letters) List.mem_cons_self
  have hunique : ((wideColumn letters).isKeyLike || (wideColumn letters).settings.isUnique) = true :=
    Bool.or_eq_true_iff.2 (.inr rfl)
  have hsource : ((Prepared.ofSchema (wide letters)).job oneRow).source (wideTable letters)
      (wideColumn letters) = .key ⟨"varchar", .text, some 65536, none⟩ := by
    rw [← resolve_wideColumn]
    exact Prepared.source_of_unique oneRow hunique fun _ hr => absurd hr List.not_mem_nil
  have hkey : (⟨"varchar", .text, some 65536, none⟩ : ColumnType).canWriteKey (wideColumn letters).name 0 =
      true := by
    simp only [Function.comp, hsource, Source.canWriteKeys, List.all_eq_true] at hcolumn
    exact hcolumn 0 (by decide : 0 ∈ List.range (1 : UInt64).toNat)
  have hlength : (wideColumn letters).name.length = letters := by simp [wideColumn]
  have hdigits : (padded 5 (0 + 1 : UInt64).toNat).length = 5 := length_padded (by decide) (by decide)
  have hmark : "_".length = 1 := rfl
  simp only [ColumnType.canWriteKey, String.length_append, hlength, hdigits, hmark, Bool.or_eq_true,
    decide_eq_true_eq] at hkey
  rcases hkey with hwidth | hfits
  · exact absurd hwidth (by decide)
  · omega

/-- A run over a schema of a wide column breaks off, although the text has a table, the rate is
one and the dates fit. -/
theorem wide_key_breaks_off :
    (Dbml.parse (Dbml.write (wide 65531))).1 = some (wide 65531) ∧
      (0.0 ≤ oneRow.nullRate ∧ oneRow.nullRate ≤ 1.0) ∧ oneRow.DatesFit ∧
      (generateFromText (Dbml.write (wide 65531)) oneRow).1 = .error .keyTooWide := by
  have hparse := parse_wide (by decide : 0 < 65531)
  have hfit : oneRow.DatesFit := ⟨by decide +kernel, by decide +kernel⟩
  refine ⟨hparse, by decide +kernel, hfit, ?_⟩
  rw [generateFromText_error_iff hparse]
  exact generate_tooWide (by decide +kernel) (Dbml.distinct_of_schema hparse) hfit
    (wide_not_writesKeys (Nat.le_refl _))

end SeedData
