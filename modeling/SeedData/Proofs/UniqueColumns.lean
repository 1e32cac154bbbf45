/-
Unique columns of a run over a text: where no issue says that keys run out, the values
of the column are the keys of its rows (`keyed_column`), and they differ unless the
column's type repeats a label (`unique_values_differ_iff`).
-/
import SeedData.Proofs.DistinctKeys
import SeedData.Proofs.DraftHistory
import SeedData.Proofs.RunHistory
import SeedData.Run.FromText

namespace SeedData

variable {text : String} {options : Options} {prepared : Prepared} {run : Run} {table : Table} {c : Column}
  {ref : ColumnRef}

/-! ## Columns that nothing refers from -/

namespace Prepared

theorem job_ofSchema (schema : Schema) (options : Options) : (ofSchema schema).job options =
    Job.ofSchema schema.catalog (ofSchema schema).keys (ofSchema schema).classified.attributes options := rfl

theorem keys_eq_none {schema : Schema} (h : ∀ r ∈ schema.references, r.source ≠ ref) :
    (ofSchema schema).keys.get? ref = none :=
  ForeignKeys.get?_ofReferences_eq_none fun r hr => h r (List.mem_filter.1 hr).1

theorem targets_eq_none {schema : Schema} (h : ∀ r ∈ schema.references, r.source ≠ ref) :
    (attributeTargets (ofSchema schema).keys (ofSchema schema).classified.attributes).get? ref = none :=
  (get?_attributeTargets_eq_none_iff (keys_eq_none h)).2 fun r hr => h r (List.mem_filter.1 hr).1

/-- A unique column that nothing refers from is filled with keys. -/
theorem source_of_unique (options : Options) {schema : Schema}
    (hunique : (c.isKeyLike || c.settings.isUnique) = true)
    (h : ∀ r ∈ schema.references, r.source ≠ ⟨table.name, c.name⟩) :
    ((ofSchema schema).job options).source table c =
      .key (ColumnType.resolve schema.catalog c.dataType) :=
  sourceOf_eq_key_iff.2 ⟨keys_eq_none h, targets_eq_none h, hunique, rfl⟩

end Prepared

/-- A run over a text is the run of the text's schema. -/
theorem run_of_generateFromText (h : (generateFromText text options).1 = .ok (prepared, run)) :
    (∃ notices, Dbml.parse text = (some prepared.schema, notices)) ∧
      prepared = Prepared.ofSchema prepared.schema ∧ (prepared.job options).generate.1 = .ok run := by
  unfold generateFromText at h
  split at h
  · cases h
  · rename_i schema notices hparse
    dsimp only at h
    obtain ⟨run', hrun, heq⟩ : ∃ run', ((Prepared.ofSchema schema).job options).generate.1 = .ok run' ∧
        (Prepared.ofSchema schema, run') = (prepared, run) := by
      cases hgenerate : ((Prepared.ofSchema schema).job options).generate.1 with
      | error fault => simp [hgenerate, Except.map] at h
      | ok run' => exact ⟨run', rfl, by simpa [hgenerate, Except.map] using h⟩
    cases heq
    exact ⟨⟨notices, hparse⟩, rfl, hrun⟩

theorem generateFromText_of_parse {schema : Schema} (hparse : (Dbml.parse text).1 = some schema)
    (hrun : ((Prepared.ofSchema schema).job options).generate.1 = .ok run) :
    (generateFromText text options).1 = .ok (Prepared.ofSchema schema, run) := by
  unfold generateFromText
  split
  · rename_i heq
    rw [heq] at hparse
    cases hparse
  · rename_i heq
    rw [heq] at hparse
    cases hparse
    simp only [hrun, Except.map]

/-! ## The values of a column -/

/-- The values of a column, once they are known row by row. -/
theorem DataTable.columnValues?_eq {t : DataTable} {column : String} {f : Nat → Value}
    (hcolumn : column ∈ t.columns) (h : ∀ r < t.rows.size, t.value? r column = some (f r)) :
    t.columnValues? column = some ((List.range t.rows.size).map f) := by
  obtain ⟨index, hindex⟩ : ∃ index, t.columnIndex? column = some index := by
    rw [← Option.isSome_iff_exists]
    simpa [columnIndex?] using hcolumn
  have hmap : t.rows.toList.map (·[index]?) = (List.range t.rows.size).map fun r => some (f r) := by
    refine List.ext_getElem (by simp) fun r hr _ => ?_
    have hr : r < t.rows.size := by simpa using hr
    have hrow := h r hr
    simpa [value?, hindex, hr] using hrow
  calc t.columnValues? column
      = some ((t.rows.toList.map (·[index]?)).filterMap id) := by
        simp [columnValues?, hindex, List.filterMap_map]
    _ = _ := by
        rw [hmap, List.filterMap_map]
        simp

/-- A unique column that nothing refers from holds the key of each row, and its type has
room for the rows unless an issue says otherwise. -/
theorem keyed_column (hrun : (generateFromText text options).1 = .ok (prepared, run))
    (ht : table ∈ prepared.schema.catalog.tables) (hc : c ∈ table.columns)
    (hunique : (c.isKeyLike || c.settings.isUnique) = true)
    (hfree : ∀ r ∈ prepared.schema.references, r.source ≠ ⟨table.name, c.name⟩)
    (hissue : ∀ i ∈ run.report.about ⟨table.name, c.name⟩, i.code ≠ "unique_exhausted") :
    (ColumnType.resolve prepared.schema.catalog c.dataType).Holds options.rows.toNat ∧
      ∃ filled, run.dataset.table? table.name = some filled ∧
        filled.columnValues? c.name = some ((List.range options.rows.toNat).map fun r =>
          (ColumnType.resolve prepared.schema.catalog c.dataType).key c.name (UInt64.ofNat r)
            options.baseDate) := by
  obtain ⟨⟨notices, hparse⟩, hprepared, hgenerate⟩ := run_of_generateFromText hrun
  have hd := Dbml.distinct_of_parse hparse
  have hsource := Prepared.source_of_unique options hunique hfree
  rw [hprepared, Prepared.job_ofSchema] at hgenerate
  rw [Prepared.job_ofSchema] at hsource
  obtain ⟨earlier, before, filled, hfill, -⟩ := exists_filling hd hgenerate ht
  have habout := hfill.about hd ht hc
  rw [hsource, Job.options_ofSchema] at habout
  refine ⟨fun capacity hcapacity => ?_, filled, hfill.found, ?_⟩
  · by_contra hless
    have hexhausted : Shortfall.exhausted (ColumnType.resolve prepared.schema.catalog c.dataType).base
        capacity options.rows ∈ (Source.key (ColumnType.resolve prepared.schema.catalog c.dataType)).shortfalls
          before.pools options.rows table.name := by
      simp [Source.shortfalls, Source.exhaustion?, hcapacity, Nat.lt_of_not_le hless]
    exact hissue _ (habout ▸ List.mem_map_of_mem hexhausted) rfl
  · have hsize : filled.rows.size = options.rows.toNat := hfill.fills.size
    have hcolumn : c.name ∈ filled.columns := hfill.fills.columns ▸ List.mem_map_of_mem hc
    rw [← hsize]
    exact DataTable.columnValues?_eq hcolumn fun r hr =>
      hfill.fills.key_cell (hd.columns table ht) hc hsource hr

/-- **The values of a unique column differ, unless its type repeats a label**: in a run over a
text, where a column is unique, nothing refers from it and no issue says that its keys run
out, the only values that come twice are labels that the type of the column lists twice. -/
theorem unique_values_differ_iff (hrun : (generateFromText text options).1 = .ok (prepared, run))
    (ht : table ∈ prepared.schema.catalog.tables) (hc : c ∈ table.columns)
    (hunique : (c.isKeyLike || c.settings.isUnique) = true)
    (hfree : ∀ r ∈ prepared.schema.references, r.source ≠ ⟨table.name, c.name⟩)
    (hissue : ∀ i ∈ run.report.about ⟨table.name, c.name⟩, i.code ≠ "unique_exhausted") :
    ∃ filled values, run.dataset.table? table.name = some filled ∧
      filled.columnValues? c.name = some values ∧ values.length = options.rows.toNat ∧
      (values.Nodup ↔
        ∀ labels, (ColumnType.resolve prepared.schema.catalog c.dataType).family = .enumerated labels →
          (labels.take options.rows.toNat).Nodup) := by
  obtain ⟨hholds, filled, hfound, hvalues⟩ := keyed_column hrun ht hc hunique hfree hissue
  refine ⟨filled, _, hfound, hvalues, by simp, ?_⟩
  exact ColumnType.nodup_keys_iff hholds options.rows.toNat_lt

/-! ## Paints by their shades -/

theorem exists_run_of_issues {issues : List Issue}
    (h : (generateFromText text options).1.toOption.map (fun result => result.2.report.issues) =
      some issues) :
    ∃ prepared run, (generateFromText text options).1 = .ok (prepared, run) ∧
      run.report.issues = issues := by
  obtain ⟨⟨prepared, run⟩, hrun, hissues⟩ := exists_ok_of_map h
  exact ⟨prepared, run, hrun, hissues⟩

theorem schema_of_run {schema : Schema} (hrun : (generateFromText text options).1 = .ok (prepared, run))
    (hparse : (Dbml.parse text).1 = some schema) : prepared.schema = schema := by
  obtain ⟨⟨notices, heq⟩, -⟩ := run_of_generateFromText hrun
  rw [heq] at hparse
  exact Option.some.inj hparse

/-- The text of a schema of paints, each of a shade of its own out of two. -/
def paintsText (first second : String) : String :=
  "Enum shade \x7b\n " ++ first ++ "\n " ++ second ++ "\n\x7d\n"
    ++ "Table paints \x7b\n shade shade [unique]\n\x7d\n"

/-- The table that `paintsText` writes. -/
def paintsTable : Table := ⟨"paints", [⟨"shade", "shade", ⟨[.unique]⟩⟩]⟩

/-- The schema that `paintsText` writes. -/
def paints (first second : String) : Schema := ⟨⟨[paintsTable], [⟨"shade", [first, second]⟩]⟩, []⟩

theorem paints_of_two_shades_differ : ∃ prepared run,
    (generateFromText (paintsText "red" "blue") twoRows).1 = .ok (prepared, run) ∧
    ∃ filled values, run.dataset.table? "paints" = some filled ∧
      filled.columnValues? "shade" = some values ∧ values.length = 2 ∧ values.Nodup := by
  obtain ⟨prepared, run, hrun, hissues⟩ := exists_run_of_issues
    (by decide +kernel : (generateFromText (paintsText "red" "blue") twoRows).1.toOption.map
      (fun result => result.2.report.issues) = some [])
  have hschema : prepared.schema = paints "red" "blue" := schema_of_run hrun (by decide +kernel)
  have ht : paintsTable ∈ prepared.schema.catalog.tables := by
    rw [hschema]
    exact List.mem_cons_self
  obtain ⟨filled, values, hfound, hvalues, hlength, hiff⟩ := unique_values_differ_iff hrun ht
    List.mem_cons_self (by decide) (by simp [hschema, paints]) (by simp [Report.about, hissues])
  refine ⟨prepared, run, hrun, filled, values, hfound, hvalues, hlength, hiff.2 fun labels hlabels => ?_⟩
  rw [hschema] at hlabels
  obtain rfl : ["red", "blue"] = labels := Family.enumerated.inj hlabels
  decide

/-- A type that lists a label twice gives the value of it twice, and no issue says so. -/
theorem paints_of_one_shade_repeat : ∃ prepared run,
    (generateFromText (paintsText "red" "red") twoRows).1 = .ok (prepared, run) ∧
    paintsTable ∈ prepared.schema.catalog.tables ∧ prepared.schema.references = [] ∧
    run.report.issues = [] ∧ ∃ filled, run.dataset.table? "paints" = some filled ∧
      filled.columnValues? "shade" = some [.text "red", .text "red"] := by
  obtain ⟨prepared, run, hrun, hissues⟩ := exists_run_of_issues
    (by decide +kernel : (generateFromText (paintsText "red" "red") twoRows).1.toOption.map
      (fun result => result.2.report.issues) = some [])
  have hschema : prepared.schema = paints "red" "red" := schema_of_run hrun (by decide +kernel)
  have ht : paintsTable ∈ prepared.schema.catalog.tables := by
    rw [hschema]
    exact List.mem_cons_self
  obtain ⟨-, filled, hfound, hvalues⟩ := keyed_column hrun ht List.mem_cons_self (by decide)
    (by simp [hschema, paints]) (by simp [Report.about, hissues])
  refine ⟨prepared, run, hrun, ht, by rw [hschema]; rfl, hissues, filled, hfound, ?_⟩
  rw [hvalues, hschema]
  rfl

end SeedData
