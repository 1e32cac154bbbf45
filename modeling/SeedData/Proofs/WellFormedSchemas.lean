/-
Well-formed schemas. Whatever a text holds, broken blocks and headers included, the schema
that is read off it has a table, and its names, types, settings, labels and references are
as later stages rely on (`wellFormed_of_parse`). Each line keeps this of the draft
(`Draft.WellFormed`): blocks, the schema so far, spelled references and aliases.
-/
import Mathlib.Data.List.Induction
import SeedData.Proofs.DraftHistory
import SeedData.Proofs.Identifiers

namespace SeedData

open Identifier (IsIdentifier)
open Text (Tidy)

/-! ## Schemas -/

/-- The name of the column is not empty and has no blanks around it, its type is not empty,
and it has no setting twice. -/
structure Column.WellFormed (c : Column) : Prop where
  name : Tidy c.name.toList
  dataType : c.dataType ≠ ""
  settings : c.settings.toList.Nodup

structure Table.WellFormed (t : Table) : Prop where
  name : IsIdentifier t.name
  columns : ∀ c ∈ t.columns, c.WellFormed

/-- No label of the type is empty. -/
def EnumType.WellFormed (e : EnumType) : Prop := "" ∉ e.labels

/-- The tables go by identifiers, and the names of the columns are not empty and have no
blanks around them. -/
structure Reference.WellFormed (r : Reference) : Prop where
  sourceTable : IsIdentifier r.sourceTable
  sourceColumn : Tidy r.sourceColumn.toList
  targetTable : IsIdentifier r.targetTable
  targetColumn : Tidy r.targetColumn.toList

/-- What tables and types are like, one by one; types have different names. -/
structure Catalog.WellFormed (c : Catalog) : Prop where
  tables : ∀ t ∈ c.tables, t.WellFormed
  enumNames : (c.enums.map (·.name)).Nodup
  enums : ∀ e ∈ c.enums, e.WellFormed

/-- What later stages rely on of a schema. -/
structure Schema.WellFormed (s : Schema) : Prop where
  tables : s.catalog.tables ≠ []
  distinct : s.catalog.Distinct
  catalog : s.catalog.WellFormed
  references : ∀ r ∈ s.references, r.WellFormed

/-! ## Adding to a schema -/

theorem Settings.nodup_ofList (l : List Setting) : (Settings.ofList l).toList.Nodup := by
  unfold ofList
  induction l using List.reverseRecOn with
  | nil => exact List.nodup_nil
  | append_singleton l x ih =>
    rw [List.foldl_append, List.foldl_cons, List.foldl_nil, Settings.insert]
    split
    · exact ih
    · rename_i hnew
      rw [← List.concat_eq_append]
      exact ih.concat (by simpa [contains] using hnew)

namespace Catalog.WellFormed

variable {c : Catalog} {t : Table} {e : EnumType}

theorem upsert (h : c.WellFormed) (ht : t.WellFormed) : (c.upsert t).WellFormed where
  tables u hu := by
    rcases mem_of_mem_upsertInto hu with rfl | hu
    · exact ht
    · exact h.tables u hu
  enumNames := h.enumNames
  enums := h.enums

theorem replaceEnum (h : c.WellFormed) (he : e.WellFormed) : (c.replaceEnum e).WellFormed where
  tables := h.tables
  enumNames := by
    have hrest : ((c.enums.filter (·.name ≠ e.name)).map (·.name)).Nodup :=
      h.enumNames.sublist (List.filter_sublist.map _)
    show ((c.enums.filter (·.name ≠ e.name) ++ [e]).map (·.name)).Nodup
    rw [List.map_append, List.map_singleton, ← List.concat_eq_append]
    refine hrest.concat fun hmem => ?_
    obtain ⟨f, hf, hname⟩ := List.mem_map.1 hmem
    simpa [hname] using (List.mem_filter.1 hf).2
  enums f hf := by
    rcases List.mem_append.1 hf with hf | hf
    · exact h.enums f (List.mem_filter.1 hf).1
    · exact List.mem_singleton.1 hf ▸ he

end Catalog.WellFormed

namespace Dbml

/-! ## Drafts -/

theorem wellFormed_lineColumn {line : List Char} (hname : (Draft.columnText line).name ≠ [])
    (htype : (Draft.columnText line).dataType ≠ []) : (lineColumn line).WellFormed where
  name := Draft.tidy_lineColumn_name hname
  dataType := by
    show String.ofList (Draft.columnText line).dataType ≠ ""
    simpa using htype
  settings := Settings.nodup_ofList _

def Block.WellFormed : Block → Prop
  | .table t _ => t.WellFormed
  | .enum e => e.WellFormed
  | _ => True

theorem kept_wellFormed : Draft.Kept Block.WellFormed Catalog.WellFormed where
  new b hb := by
    cases hb with
    | table spelled => exact ⟨Identifier.isIdentifier_normalize spelled, by simp⟩
    | enum => exact List.not_mem_nil
    | references | skipped => trivial
  column line t t' _ hname htype hpush ht := by
    obtain ⟨-, rfl⟩ := Table.pushColumn?_eq_some_iff.1 hpush
    refine ⟨ht.name, fun c hc => ?_⟩
    rcases List.mem_append.1 hc with hc | hc
    · exact ht.columns c hc
    · exact List.mem_singleton.1 hc ▸ wellFormed_lineColumn hname htype
  label e label hlabel he hmem := by
    rcases List.mem_append.1 hmem with hmem | hmem
    · exact he hmem
    · have hempty := List.mem_singleton.1 hmem
      exact hlabel (by simpa using hempty.symm)
  skipped _ := trivial
  upsert _ _ _ ht hc := hc.upsert ht
  replaceEnum _ _ he hc := hc.replaceEnum he

namespace Draft

/-- What holds of every draft on the way. -/
structure WellFormed (d : Draft) : Prop where
  holds : d.Holds Block.WellFormed Catalog.WellFormed
  links : ∀ l ∈ d.links, Tidy l.child.column.toList ∧ Tidy l.parent.column.toList
  aliases : ∀ a ∈ d.aliases, IsIdentifier a.2

variable {d d' : Draft}

theorem wellFormed_start : start.WellFormed where
  holds := holds_start ⟨by simp [Catalog.empty], List.nodup_nil, by simp [Catalog.empty]⟩
  links := by simp [start]
  aliases := by simp [start]

theorem WellFormed.turn (h : d.WellFormed) (hturn : d.Turn d') : d'.WellFormed := by
  have hholds := h.holds.turn kept_wellFormed hturn
  cases hturn with
  | link hchild hparent =>
    refine ⟨hholds, fun l hl => ?_, h.aliases⟩
    rcases List.mem_append.1 hl with hl | hl
    · exact h.links l hl
    · obtain rfl := List.mem_singleton.1 hl
      exact ⟨hchild, hparent⟩
  | abbreviate shortName spelled =>
    exact ⟨hholds, h.links,
      List.forall_mem_cons.2 ⟨Identifier.isIdentifier_normalize spelled, h.aliases⟩⟩
  | close =>
    obtain ⟨hlinks, haliases⟩ := d.close_links_aliases
    exact ⟨hholds, hlinks ▸ h.links, haliases ▸ h.aliases⟩
  | notice | await | giveUp | enter | enterAwaited | column | label | skip | skipped =>
    exact ⟨hholds, h.links, h.aliases⟩

theorem Becomes.wellFormed (h : d.Becomes d') (hd : d.WellFormed) : d'.WellFormed :=
  h.keeps (fun _ _ hturn ha => ha.turn hturn) hd

/-! ## From drafts to schemas -/

theorem WellFormed.resolve (h : d.WellFormed) (spelled : String) : IsIdentifier (d.resolve spelled) := by
  unfold Draft.resolve
  cases hlookup : d.aliases.lookup spelled with
  | none => exact Identifier.isIdentifier_normalize spelled
  | some table =>
    obtain ⟨before, after, haliases, -⟩ := List.lookup_eq_some_iff.1 hlookup
    exact h.aliases (spelled, table) (by simp [haliases])

theorem WellFormed.reference (h : d.WellFormed) {l : Link} (hl : l ∈ d.links) :
    (d.reference l).WellFormed where
  sourceTable := h.resolve _
  sourceColumn := (h.links l hl).1
  targetTable := h.resolve _
  targetColumn := (h.links l hl).2

end Draft

theorem wellFormed_draft (text : List Char) : (draft text).WellFormed :=
  (becomes_draft text).wellFormed Draft.wellFormed_start

theorem tables_ne_nil_of_parse {text : String} {schema : Schema} {notices : List Notice}
    (h : parse text = (some schema, notices)) : schema.catalog.tables ≠ [] := by
  rw [schema_of_parse h]
  unfold parse at h
  dsimp only at h
  split at h
  · cases h
  · rename_i hne
    exact fun hnil => hne (List.isEmpty_iff.2 hnil)

/-- **Every schema that is read off a text is well formed.** -/
theorem wellFormed_of_parse {text : String} {schema : Schema} (h : (parse text).1 = some schema) :
    schema.WellFormed := by
  have hparse : parse text = (some schema, (parse text).2) := Prod.ext h rfl
  have hwell := wellFormed_draft text.toList
  have hschema := schema_of_parse hparse
  refine ⟨tables_ne_nil_of_parse hparse, distinct_of_parse hparse, ?_, ?_⟩
  · rw [hschema]
    exact hwell.holds.catalog
  · rw [hschema]
    exact List.forall_mem_map.2 fun l hl => hwell.reference hl

/-- A text whose names start with a digit, end with a mark or stand among blanks, with an
empty label and a setting twice. -/
def looseText : String :=
  "Table \"2nd Shop!\" as s \x7b\n \" full name \" text [unique, unique]\n\x7d\n"
    ++ "Enum size \x7b\n \"\"\n xl\n\x7d\nRef: s.\" full name \" > \"Owners\".id"

/-- The schema that `looseText` writes. -/
def looseSchema : Schema where
  catalog := ⟨[⟨"t_2nd_shop", [⟨"full name", "text", ⟨[.unique]⟩⟩]⟩], [⟨"size", ["xl"]⟩]⟩
  references := [⟨"t_2nd_shop", "full name", "owners", "id"⟩]

theorem looseSchema_is_wellFormed : (parse looseText).1 = some looseSchema ∧ looseSchema.WellFormed := by
  have hparse : (parse looseText).1 = some looseSchema := by decide +kernel
  exact ⟨hparse, wellFormed_of_parse hparse⟩

end Dbml
end SeedData
