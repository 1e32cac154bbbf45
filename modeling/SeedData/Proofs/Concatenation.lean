/-
Texts one behind the other. Where nothing is open behind the first, reading the second goes on
from what the first says as it would from the start (`tied_follows`), so the schema of both is
that of the first with what the second says put in (`parse_append`), if no table has an alias.

Tables of the second text that take each other's places do so before they take the places of
those in the first, or after: it comes to the same (`Catalog.foldl_upsertInto`).
-/
import SeedData.Proofs.SkippedBlocks
import SeedData.Proofs.WellFormedSchemas

namespace SeedData

namespace Catalog

variable {t u : Table} {l ts : List Table}

/-- The later of two tables of one name stays. -/
theorem upsertInto_upsertInto_of_eq (h : t.name = u.name) (l : List Table) :
    upsertInto t (upsertInto u l) = upsertInto t l := by
  induction l with
  | nil => simp [upsertInto, h]
  | cons v l ih =>
    by_cases hv : v.name = t.name
    · simp [upsertInto, hv, h]
    · simp [upsertInto, hv, h ▸ hv, ih]

/-- A table that takes the place of another may do so before or after a third comes in. -/
theorem upsertInto_comm (hne : t.name ≠ u.name) (hmem : t.name ∈ l.map (·.name)) :
    upsertInto t (upsertInto u l) = upsertInto u (upsertInto t l) := by
  induction l with
  | nil => simp at hmem
  | cons v l ih =>
    by_cases ht : v.name = t.name
    · have hu : v.name ≠ u.name := fun hu => hne (ht.symm.trans hu)
      simp [upsertInto, ht, hne]
    · have hrest : t.name ∈ l.map (·.name) := by
        rw [List.map_cons, List.mem_cons] at hmem
        exact hmem.resolve_left (Ne.symm ht)
      by_cases hu : v.name = u.name
      · simp [upsertInto, hu, Ne.symm hne]
      · simp [upsertInto, ht, hu, ih hrest]

theorem upsertInto_foldl (hnew : t.name ∉ ts.map (·.name)) (hmem : t.name ∈ l.map (·.name)) :
    upsertInto t (ts.foldl (fun l u => upsertInto u l) l) =
      ts.foldl (fun l u => upsertInto u l) (upsertInto t l) := by
  induction ts generalizing l with
  | nil => rfl
  | cons u ts ih =>
    rw [List.map_cons, List.mem_cons, not_or] at hnew
    have hkept : t.name ∈ (upsertInto u l).map (·.name) := by
      rw [names_upsertInto]
      split
      · exact hmem
      · exact List.mem_append_left _ hmem
    rw [List.foldl_cons, ih hnew.2 hkept, upsertInto_comm hnew.1 hmem, List.foldl_cons]

/-- Putting in tables of which one took another's place comes to putting in the tables before
and then that one. -/
theorem foldl_upsertInto (hdistinct : (ts.map (·.name)).Nodup) (l : List Table) :
    (upsertInto t ts).foldl (fun l u => upsertInto u l) l =
      upsertInto t (ts.foldl (fun l u => upsertInto u l) l) := by
  induction ts generalizing l with
  | nil => rfl
  | cons u ts ih =>
    rw [List.map_cons, List.nodup_cons] at hdistinct
    rw [upsertInto]
    by_cases hu : u.name = t.name
    · have hmem : t.name ∈ (upsertInto u l).map (·.name) := by
        rw [names_upsertInto, ← hu]
        split
        · assumption
        · exact List.mem_append_right _ (List.mem_singleton_self _)
      rw [if_pos hu, List.foldl_cons, List.foldl_cons, upsertInto_foldl (hu ▸ hdistinct.1) hmem,
        upsertInto_upsertInto_of_eq hu.symm]
    · rw [if_neg hu, List.foldl_cons, List.foldl_cons, ih hdistinct.2]

theorem upsertInto_ne_nil (t : Table) (l : List Table) : upsertInto t l ≠ [] := by
  cases l with
  | nil => exact List.cons_ne_nil t []
  | cons u l =>
    rw [upsertInto]
    split <;> exact List.cons_ne_nil _ _

theorem foldl_upsertInto_ne_nil (hl : l ≠ []) (ts : List Table) :
    ts.foldl (fun l u => upsertInto u l) l ≠ [] := by
  induction ts generalizing l with
  | nil => exact hl
  | cons t ts ih => exact ih (upsertInto_ne_nil t l)

/-- The catalog with what another one has put in: its tables in the places of those with their
names or at the end, its types in place of those with their names, at the end. -/
def followedBy (c c' : Catalog) : Catalog where
  tables := c'.tables.foldl (fun l t => upsertInto t l) c.tables
  enums := c.enums.filter (·.name ∉ c'.enums.map (·.name)) ++ c'.enums

theorem followedBy_upsert {c c' : Catalog} (hdistinct : (c'.tables.map (·.name)).Nodup) (t : Table) :
    c.followedBy (c'.upsert t) = (c.followedBy c').upsert t :=
  congrArg (Catalog.mk · _) (foldl_upsertInto hdistinct c.tables)

theorem followedBy_replaceEnum (c c' : Catalog) (e : EnumType) :
    c.followedBy (c'.replaceEnum e) = (c.followedBy c').replaceEnum e := by
  have hnames : ∀ f : EnumType, f.name ∉ (c'.replaceEnum e).enums.map (·.name) ↔
      f.name ≠ e.name ∧ f.name ∉ c'.enums.map (·.name) := by
    intro f
    simp only [replaceEnum]
    grind
  have hkept : c.enums.filter (·.name ∉ (c'.replaceEnum e).enums.map (·.name)) =
      (c.enums.filter (·.name ∉ c'.enums.map (·.name))).filter (·.name ≠ e.name) := by
    rw [List.filter_filter]
    simp only [hnames, Bool.decide_and]
  refine congrArg (Catalog.mk _) ?_
  rw [hkept]
  simp [followedBy, replaceEnum]

end Catalog

/-- The schema with what another one says put in. -/
def Schema.followedBy (s s' : Schema) : Schema :=
  ⟨s.catalog.followedBy s'.catalog, s.references ++ s'.references⟩

namespace Dbml

open Text

namespace Draft

variable {base d e : Draft}

/-- What a draft would be if everything in `base` had been read before. -/
def after (base d : Draft) : Draft :=
  { d with
    catalog := base.catalog.followedBy d.catalog
    links := base.links ++ d.links
    aliases := d.aliases ++ base.aliases }

/-- `e` is what `d` is behind `base`, up to what there is to say about the text. -/
structure Follows (base d e : Draft) : Prop where
  distinct : (d.catalog.tables.map (·.name)).Nodup
  after : e.silent = (base.after d).silent

theorem tied_follows (base : Draft) : Tied (Follows base) where
  blocks h := (apply_eq_of_silent (f := Draft.blocks) (fun _ => rfl) h.after).symm
  header h := (apply_eq_of_silent (f := Draft.header) (fun _ => rfl) h.after).symm
  notice_left _ h := ⟨h.distinct, h.after⟩
  notice_right _ h := ⟨h.distinct, h.after⟩
  setBlocks blocks h := ⟨h.distinct, congrArg (fun d : Draft => { d with blocks }) h.after⟩
  setHeader header h := ⟨h.distinct, congrArg (fun d : Draft => { d with header }) h.after⟩
  link l h := by
    refine ⟨h.distinct, (congrArg (fun d : Draft => { d with links := d.links ++ [l] }) h.after).trans ?_⟩
    simp [Draft.after, silent]
  abbreviate a h := ⟨h.distinct, congrArg (fun d : Draft => { d with aliases := a :: d.aliases }) h.after⟩
  upsert t h := by
    refine ⟨Catalog.nodup_names_upsertInto t h.distinct,
      (congrArg (fun d : Draft => { d with catalog := d.catalog.upsert t }) h.after).trans ?_⟩
    simp [Draft.after, silent, Catalog.followedBy_upsert h.distinct]
  replaceEnum type h := by
    refine ⟨h.distinct,
      (congrArg (fun d : Draft => { d with catalog := d.catalog.replaceEnum type }) h.after).trans ?_⟩
    simp [Draft.after, silent, Catalog.followedBy_replaceEnum]

/-- Reading goes on behind a draft with nothing open as from the start. -/
theorem follows_start (hblocks : base.blocks = []) (hheader : base.header = none) :
    Follows base start base where
  distinct := List.nodup_nil
  after := by
    obtain ⟨catalog, links, aliases, blocks, header, notices⟩ := base
    obtain rfl : blocks = [] := hblocks
    obtain rfl : header = none := hheader
    simp [silent, Draft.after, start, Catalog.followedBy, Catalog.empty]

theorem finish_of_closed (h : d.blocks = []) : d.finish .code = d := by simp [finish, h]

theorem reference_congr (h : d.aliases = e.aliases) (l : Link) : d.reference l = e.reference l := by
  simp only [reference, resolve, h]

/-- Without aliases, references are between the tables that they spell wherever they stand. -/
theorem schema_after (hbase : base.aliases = []) (hd : d.aliases = []) :
    (base.after d).schema = base.schema.followedBy d.schema := by
  have hafter : (base.after d).aliases = [] := by simp [Draft.after, hbase, hd]
  have hlinks : (base.after d).links.map (base.after d).reference =
      base.links.map base.reference ++ d.links.map d.reference := by
    rw [Draft.after, List.map_append]
    refine congrArg₂ (· ++ ·) (List.map_congr_left fun l _ => ?_) (List.map_congr_left fun l _ => ?_)
    · exact reference_congr (hafter.trans hbase.symm) l
    · exact reference_congr (hafter.trans hd.symm) l
  exact congrArg (Schema.mk _) hlinks

end Draft

/-- A text that leaves nothing open is not closed. -/
theorem AtTopLevel.draft_eq {text : List Char} (h : AtTopLevel text) :
    draft text = (codeLines .code (lines text)).1.foldl Draft.read .start := by
  rw [draft]
  dsimp only
  rw [h.carry, Draft.finish_of_closed h.blocks]

/-- The draft of a text behind another that leaves nothing open. -/
theorem draft_append {a : List Char} (ha : AtTopLevel a) (b : List Char) :
    (draft (a ++ b)).silent = ((draft a).after (draft b)).silent := by
  have hfollows : Draft.Follows (draft a) .start (draft a) := by
    rw [ha.draft_eq]
    exact Draft.follows_start ha.blocks ha.header
  have htied := Draft.tied_follows (draft a)
  have hread := htied.finish (codeLines .code (lines b)).2
    (htied.foldl_read (codeLines .code (lines b)).1 hfollows)
  rw [draft, lines_append ha.wholeLines]
  dsimp only
  rw [codeLines_append, ha.carry, List.foldl_append, ← ha.draft_eq]
  exact hread.after

/-- **Texts one behind the other are their schemas one behind the other**: of two texts that
are schemas without aliases, the first with nothing open at its end, both together are the
schema of the first with what the second says put in. -/
theorem parse_append {a b : String} {s s' : Schema} (ha : AtTopLevel a.toList)
    (hs : (parse a).1 = some s) (hs' : (parse b).1 = some s') (haliases : (draft a.toList).aliases = [])
    (haliases' : (draft b.toList).aliases = []) : (parse (a ++ b)).1 = some (s.followedBy s') := by
  have hs : parse a = (some s, (parse a).2) := Prod.ext hs rfl
  have hs' : parse b = (some s', (parse b).2) := Prod.ext hs' rfl
  have htables : (draft a.toList).catalog.tables ≠ [] := by
    have hne := tables_ne_nil_of_parse hs
    rwa [schema_of_parse hs] at hne
  have hwhole : ¬ ((draft a.toList).after (draft b.toList)).catalog.tables.isEmpty := by
    rw [List.isEmpty_iff]
    exact Catalog.foldl_upsertInto_ne_nil htables _
  rw [parse_of_silent (String.toList_append ▸ draft_append ha b.toList), if_neg hwhole,
    Draft.schema_after haliases haliases', schema_of_parse hs, schema_of_parse hs']

/-- Two tables, a type and a reference. -/
def earlierText : String :=
  "Table a \x7b\nid int\n\x7d\nTable b \x7b\nid int\n\x7d\nEnum e \x7b\nx\n\x7d\nRef: b.id > a.id\n"

def earlierSchema : Schema :=
  ⟨⟨[⟨"a", [⟨"id", "int", ⟨[]⟩⟩]⟩, ⟨"b", [⟨"id", "int", ⟨[]⟩⟩]⟩], [⟨"e", ["x"]⟩]⟩, [⟨"b", "id", "a", "id"⟩]⟩

/-- A table, and one table and the type of `earlierText` once more. -/
def laterText : String :=
  "Table c \x7b\nid int\n\x7d\nTable a \x7b\nid text\n\x7d\nEnum e \x7b\ny\n\x7d\nRef: c.id > a.id\n"

def laterSchema : Schema :=
  ⟨⟨[⟨"c", [⟨"id", "int", ⟨[]⟩⟩]⟩, ⟨"a", [⟨"id", "text", ⟨[]⟩⟩]⟩], [⟨"e", ["y"]⟩]⟩, [⟨"c", "id", "a", "id"⟩]⟩

theorem earlierText_then_laterText : (parse (earlierText ++ laterText)).1 =
    some ⟨⟨[⟨"a", [⟨"id", "text", ⟨[]⟩⟩]⟩, ⟨"b", [⟨"id", "int", ⟨[]⟩⟩]⟩, ⟨"c", [⟨"id", "int", ⟨[]⟩⟩]⟩],
      [⟨"e", ["y"]⟩]⟩, [⟨"b", "id", "a", "id"⟩, ⟨"c", "id", "a", "id"⟩]⟩ := by
  have htop : AtTopLevel earlierText.toList :=
    ⟨.inr (by decide +kernel), by decide +kernel, by decide +kernel, by decide +kernel⟩
  have hearlier : (parse earlierText).1 = some earlierSchema := by decide +kernel
  have hlater : (parse laterText).1 = some laterSchema := by decide +kernel
  rw [parse_append htop hearlier hlater (by decide +kernel) (by decide +kernel)]
  decide

end Dbml
end SeedData
