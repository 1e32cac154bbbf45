/-
Relations with a list of columns in round brackets. A list is taken as one piece of an endpoint, but the
endpoint is then cut at its dots, those in the list included, and what stands behind the last of them is its
column (`endpoint?_eq_none_iff`). So a list makes no reference if it stands behind the last dot, and one with
a dot in it is read as a table and a column (`column_lists_refer_iff`).
-/
import SeedData.Proofs.BraceBelow
import SeedData.Proofs.SameSpelling

namespace SeedData

namespace Text

variable {p : Char → Bool} {quote : Option Char} {s : List Char}

/-- What a text is split at last: no quotation is open there, and there is nothing to split at behind it. -/
theorem exists_last_outside (h : ∃ c ∈ outside quote s, p c = true) :
    ∃ x c y, s = x ++ c :: y ∧ x.foldl quoteAfter quote = none ∧ isQuote c = false ∧ p c = true ∧
      ∀ d ∈ outside none y, p d = false := by
  induction s generalizing quote with
  | nil =>
    obtain ⟨c, hc, -⟩ := h
    cases hc
  | cons c s ih =>
    by_cases hlater : ∃ d ∈ outside (quoteAfter quote c) s, p d = true
    · obtain ⟨x, d, y, rfl, hclosed, hrest⟩ := ih hlater
      exact ⟨c :: x, d, y, rfl, hclosed, hrest⟩
    · obtain ⟨d, hd, hp⟩ := h
      rw [outside] at hd
      split at hd
      · rename_i hout
        simp only [isOutside, Bool.and_eq_true, Option.isNone_iff_eq_none, Bool.not_eq_true'] at hout
        have hafter : quoteAfter quote c = none := by simp [hout.1, quoteAfter, hout.2]
        rw [hafter] at hlater hd
        rcases List.mem_cons.1 hd with rfl | hd
        · exact ⟨[], d, s, rfl, hout.1, hout.2, hp, fun e he => Bool.eq_false_iff.2 fun hpe => hlater ⟨e, he, hpe⟩⟩
        · exact absurd ⟨d, hd, hp⟩ hlater
      · exact absurd ⟨d, hd, hp⟩ hlater

end Text

namespace Dbml

open Text

section Endpoints

variable {s list text : List Char}

/-! ## Endpoints that are no columns -/

/-- The text names no column of a table: around its last dot outside quotations, if it has one, there is no
table in front, or no column behind, or a list of columns behind. -/
def NamesNoColumn (s : List Char) : Prop :=
  ∀ table column, s = table ++ '.' :: column → table.foldl quoteAfter none = none → Undotted column →
    joinParts table = [] ∨ unquote column = [] ∨ (unquote column).head? = some '('

/-- The text ends with a list of columns. A bracket outside quotations opens it, behind a dot or where there is
no dot at all, and dots in the list and behind it are in quotations. -/
inductive EndsWithList : List Char → Prop
  | undotted {front list : List Char} : front.foldl quoteAfter none = none → Undotted front → Undotted list →
      EndsWithList (front ++ '(' :: list)
  | behindDot {table list : List Char} : table.foldl quoteAfter none = none → Undotted list →
      EndsWithList (table ++ '.' :: '(' :: list)

theorem endpoint?_eq_none_iff (htrim : trim s = s) : endpoint? s = none ↔ NamesNoColumn s := by
  constructor
  · rintro h table column rfl hclosed hlast
    rw [endpoint?_dotted htrim hclosed hlast] at h
    by_contra hnot
    rw [if_neg hnot] at h
    cases h
  · intro h
    by_cases hdot : ∃ c ∈ outside none s, (c == '.') = true
    · obtain ⟨table, c, column, rfl, hclosed, -, hc, hlast⟩ := exists_last_outside hdot
      obtain rfl : c = '.' := beq_iff_eq.1 hc
      rw [endpoint?_dotted htrim hclosed (undotted_iff.2 hlast)]
      exact if_pos (h table column rfl hclosed (undotted_iff.2 hlast))
    · exact endpoint?_undotted htrim fun c hc hdotted => hdot ⟨c, hc, beq_iff_eq.2 hdotted⟩

/-- A list of columns stays one when it is unquoted. -/
theorem head?_unquote_list (list : List Char) : (unquote ('(' :: list)).head? = some '(' := by
  have htrim : trim ('(' :: list) = '(' :: trimRight list := trim_around (by decide) [] list
  have hbare : isQuote '(' = false := rfl
  simp [unquote, htrim, hbare]

theorem undotted_list (h : Undotted list) : Undotted ('(' :: list) := List.forall_mem_cons.2 ⟨by decide, h⟩

theorem EndsWithList.endpoint? (htrim : trim s = s) (h : EndsWithList s) : endpoint? s = none := by
  cases h with
  | undotted hclosed hfront hlist =>
    refine endpoint?_undotted htrim ?_
    rw [Undotted, outside_append, hclosed]
    exact List.forall_mem_append.2 ⟨hfront, undotted_list hlist⟩
  | behindDot hclosed hlist =>
    rw [endpoint?_dotted htrim hclosed (undotted_list hlist)]
    exact if_pos (.inr (.inr (head?_unquote_list _)))

theorem endpoints_of_relation? {left right : List Char} {mark : Mark} (h : relation? text = some (left, mark, right)) :
    (∃ x, (takeEndpoint x).1 = left) ∧ ∃ y, (takeEndpoint y).1 = right := by
  unfold relation? at h
  dsimp only at h
  split at h
  · cases h
  · obtain ⟨⟨mark', r⟩, -, h⟩ := Option.bind_eq_some_iff.1 h
    dsimp only at h
    split at h
    · cases h
    · split at h
      · cases h
        exact ⟨⟨_, rfl⟩, _, rfl⟩
      · cases h

theorem endpoint_of_inlineRelation? {target : List Char} {mark : Mark}
    (h : inlineRelation? text = some (mark, target)) : ∃ x, (takeEndpoint x).1 = target := by
  unfold inlineRelation? at h
  obtain ⟨⟨mark', r⟩, -, h⟩ := Option.bind_eq_some_iff.1 h
  dsimp only at h
  split at h
  · cases h
  · split at h
    · cases h
      exact ⟨_, rfl⟩
    · cases h

end Endpoints

/-! ## Relations and the references they make -/

/-- A relation of a text: on its own, or beside a column. -/
inductive Relation where
  | alone (text : List Char)
  | beside (here : Endpoint) (text : List Char)

namespace Relation

/-- The mark of the relation, and the endpoints that it spells. -/
def parts? : Relation → Option (Mark × List (List Char))
  | alone text => (relation? text).map fun (left, mark, right) => (mark, [left, right])
  | beside _ text => (inlineRelation? text).map fun (mark, target) => (mark, [target])

/-- The reference that the relation makes, if it makes one. -/
def link? : Relation → Option Link
  | alone text => Draft.relationLink? text
  | beside here text => inlineLink? here text

variable {r : Relation} {mark : Mark} {ends : List (List Char)}

theorem trim_of_mem_ends (h : r.parts? = some (mark, ends)) : ∀ s ∈ ends, trim s = s := by
  cases r with
  | alone text =>
    obtain ⟨⟨left, mark, right⟩, hrelation, hparts⟩ := Option.map_eq_some_iff.1 h
    obtain ⟨-, rfl⟩ := Prod.mk.inj hparts
    obtain ⟨⟨x, rfl⟩, y, rfl⟩ := endpoints_of_relation? hrelation
    exact List.forall_mem_cons.2 ⟨trim_takeEndpoint x, List.forall_mem_singleton.2 (trim_takeEndpoint y)⟩
  | beside here text =>
    obtain ⟨⟨mark, target⟩, hrelation, hparts⟩ := Option.map_eq_some_iff.1 h
    obtain ⟨-, rfl⟩ := Prod.mk.inj hparts
    obtain ⟨x, rfl⟩ := endpoint_of_inlineRelation? hrelation
    exact List.forall_mem_singleton.2 (trim_takeEndpoint x)

theorem link?_of_endpoints {left right : Endpoint} : Dbml.link? left mark right = none ↔ mark = .noChild := by
  cases mark <;> simp [Dbml.link?]

/-- A relation makes no reference exactly if it has no child or one of its endpoints is no column. -/
theorem link?_eq_none_iff (r : Relation) : r.link? = none ↔
    ∀ mark ends, r.parts? = some (mark, ends) → mark = .noChild ∨ ∃ s ∈ ends, endpoint? s = none := by
  cases r with
  | alone text =>
    unfold link? Draft.relationLink? parts?
    cases hrelation : relation? text with
    | none => simp [hrelation]
    | some p =>
      cases hleft : endpoint? p.1 <;> cases hright : endpoint? p.2.2 <;>
        simp [hrelation, hleft, hright, link?_of_endpoints]
  | beside here text =>
    unfold link? inlineLink? parts?
    cases hrelation : inlineRelation? text with
    | none => simp [hrelation]
    | some p => cases htarget : endpoint? p.2 <;> simp [hrelation, htarget, link?_of_endpoints]

end Relation

/-! ## Lines with relations -/

namespace Draft

variable {d : Draft} {code line : List Char} {refs : List Relation} {l : Link}

/-- The line writes these relations: one behind the colon of `Ref` at top level or in a table, itself in a block
of relations, or those beside the column that it adds to a table. -/
inductive Writes (d : Draft) (code : List Char) : List Relation → Prop
  | topLevel {name text : List Char} : d.blocks = [] → leadingKeyword (trim code) = "ref".toList →
      breakOutside endsHeader none ((trim code).drop 3) = (name, ':' :: text) → Writes d code [.alone text]
  | inBlock {outer : List Block} : d.blocks = .references :: outer → trim code ≠ [] →
      (trim code).head? ≠ some '\x7d' → (d.header ≠ none → (trim code).head? ≠ some '\x7b') →
      Writes d code [.alone (trim code)]
  | inTable {t : Table} {spelled : String} {outer : List Block} {text : List Char} :
      d.blocks = .table t spelled :: outer → leadingKeyword (trim code) = "ref".toList →
      isDirective "ref".toList (trim code) = true → afterOutside? (· == ':') (trim code) = some text →
      Writes d code [.alone text]
  | column {t : Table} {spelled : String} {outer : List Block} {c : Column} :
      d.blocks = .table t spelled :: outer → (d.step code).1.Gained t spelled outer c →
      Writes d code ((lineInlineTexts (trim code)).map (.beside ⟨spelled, c.name⟩))

theorem head_of_ref {c : Char} (hc : (c.isAlphanum || c == '_') = false) (h : leadingKeyword line = "ref".toList) :
    line ≠ [] ∧ line.head? ≠ some c := by
  cases line with
  | nil => exact absurd h (by decide)
  | cons d r =>
    refine ⟨List.cons_ne_nil d r, fun hd => ?_⟩
    obtain rfl := Option.some.inj hd
    rw [leadingKeyword, List.takeWhile_cons_of_neg (by simp [hc])] at h
    cases h

/-- A line `Ref` is read in the innermost block. -/
theorem links_of_ref {links : List Link} (hkeyword : leadingKeyword (trim code) = "ref".toList)
    (hline : ∀ e : Draft, e.blocks = d.blocks → e.links = d.links → (e.lineIn (trim code)).1.links = links) :
    (d.step code).1.links = links := by
  obtain ⟨hne, hbrace⟩ := head_of_ref (c := '\x7b') (by decide) hkeyword
  exact links_of_step hne (fun _ => hbrace) hline

/-- A line adds the references of the relations it writes. -/
theorem Writes.links (h : d.Writes code refs) :
    (d.step code).1.links = d.links ++ refs.filterMap Relation.link? := by
  have hsingle : ∀ r : Relation, [r].filterMap Relation.link? = r.link?.toList := by
    intro r
    cases hr : r.link? <;> simp [hr]
  cases h with
  | topLevel hblocks hkeyword hcut =>
    rw [hsingle]
    refine links_of_ref hkeyword fun e he hlinks => ?_
    rw [lineIn, he, hblocks]
    dsimp only
    rw [topLevelLine_of_ref hkeyword, refDirective, ← endsHeader_eq, hcut]
    exact (relation_links e _).trans (congrArg (· ++ _) hlinks)
  | inBlock hblocks hne hclose hbrace =>
    rw [hsingle]
    refine links_of_step hne hbrace fun e he hlinks => ?_
    rw [lineIn, he, hblocks]
    dsimp only
    rw [if_neg hclose, relation_links, hlinks]
    rfl
  | inTable hblocks hkeyword hdirective hafter =>
    rw [hsingle]
    refine links_of_ref hkeyword fun e he hlinks => ?_
    have hclose := (head_of_ref (c := '\x7d') (by decide) hkeyword).2
    rw [lineIn, he, hblocks]
    dsimp only
    rw [tableLine, hkeyword, if_neg hclose, if_neg fun h => absurd h.1 (by decide),
      if_neg fun h => absurd h.1 (by decide), if_pos ⟨rfl, hdirective⟩, hafter]
    exact (relation_links e _).trans (congrArg (· ++ _) hlinks)
  | column hblocks hgained =>
    obtain ⟨-, hlinks⟩ := links_of_column hblocks hgained
    rw [hlinks, List.filterMap_map]
    rfl

/-! ## Lines without relations -/

theorem openOrWait_links (d : Draft) (header : Block) (line : List Char) :
    (d.openOrWait header line).1.links = d.links := by
  unfold openOrWait
  split <;> rfl

theorem topLevelLine_links (h : leadingKeyword line ≠ "ref".toList) : (d.topLevelLine line).1.links = d.links := by
  unfold topLevelLine
  dsimp only
  split
  · unfold tableHeader
    split <;> exact openOrWait_links _ _ _
  · split
    · unfold enumHeader
      split <;> exact openOrWait_links _ _ _
    · split
      · rfl
      · split
        · exact openOrWait_links _ _ _
        · split <;> rfl

/-- What follows `ref` at top level is a relation behind a colon, or opens a block. -/
theorem refDirective_links (h : ∀ name text, breakOutside endsHeader none line ≠ (name, ':' :: text)) :
    (d.refDirective line).1.links = d.links := by
  rw [refDirective, ← endsHeader_eq]
  cases hcut : breakOutside endsHeader none line with
  | mk name rest =>
    cases rest with
    | nil => exact openOrWait_links _ _ _
    | cons c text =>
      have hcolon : c ≠ ':' := fun hc => h name text (hc ▸ hcut)
      dsimp only
      rw [if_neg (by simpa using hcolon)]
      exact openOrWait_links _ _ _

/-- A line that adds no column adds no references. -/
theorem columnLine_links {t : Table} {spelled : String} {outer : List Block}
    (h : (columnText line).name ≠ [] → (columnText line).dataType ≠ [] → t.pushColumn? (lineColumn line) = none) :
    (d.columnLine t spelled outer line).links = d.links := by
  unfold columnLine
  dsimp only
  split
  · rfl
  · rename_i hname
    split
    · rfl
    · rename_i htype
      have hnone := h (by simpa using hname) (by simpa using htype)
      rw [lineColumn] at hnone
      rw [hnone]
      rfl

theorem tableLine_links {t : Table} {spelled : String} {outer : List Block}
    (href : leadingKeyword line = "ref".toList → isDirective "ref".toList line = true →
      afterOutside? (· == ':') line = none)
    (hcolumn : IsColumnLine line → (d.columnLine t spelled outer line).links = d.links) :
    (d.tableLine t spelled outer line).1.links = d.links := by
  unfold tableLine
  dsimp only
  split
  · exact d.close_links_aliases.1
  · split
    · exact openOrWait_links _ _ _
    · split
      · split
        · exact openOrWait_links _ _ _
        · rfl
      · split
        · rename_i hdirective
          rw [href hdirective.1 (hdirective.1 ▸ hdirective.2)]
        · rename_i hclose hindexes hnote hdirective
          exact hcolumn ⟨hclose, hindexes, hnote, hdirective⟩

/-- A line adds references only where it writes relations. -/
theorem writes_of_links (h : (d.step code).1.links ≠ d.links) : ∃ refs, d.Writes code refs := by
  by_contra hnone
  refine h ?_
  by_cases hne : trim code = []
  · rw [step, hne]
  by_cases hbrace : d.header ≠ none → (trim code).head? ≠ some '\x7b'
  · refine links_of_step hne hbrace fun e he hlinks => ?_
    rw [← hlinks, lineIn, he]
    cases hblocks : d.blocks with
    | nil =>
      dsimp only
      by_cases hkeyword : leadingKeyword (trim code) = "ref".toList
      · rw [topLevelLine_of_ref hkeyword]
        exact refDirective_links fun name text hcut => hnone ⟨_, .topLevel hblocks hkeyword hcut⟩
      · exact topLevelLine_links hkeyword
    | cons b outer =>
      cases b with
      | skipped depth =>
        dsimp only [skippedLine]
        split <;> rfl
      | enum type =>
        dsimp only
        split
        · exact e.close_links_aliases.1
        · unfold labelLine
          dsimp only
          split <;> rfl
      | references =>
        dsimp only
        split
        · exact e.close_links_aliases.1
        · rename_i hclose
          exact absurd ⟨_, .inBlock hblocks hne hclose hbrace⟩ hnone
      | table t spelled =>
        refine tableLine_links (fun hkeyword hdirective => ?_) fun hline => columnLine_links fun hname htype => ?_
        · rw [Option.eq_none_iff_forall_ne_some]
          exact fun text hafter => hnone ⟨_, .inTable hblocks hkeyword hdirective hafter⟩
        · rw [Option.eq_none_iff_forall_ne_some]
          intro t' hpush
          obtain ⟨hnew, -⟩ := Table.pushColumn?_eq_some_iff.1 hpush
          exact hnone ⟨_, .column hblocks ((gained_iff hblocks).2 ⟨hline, hbrace, rfl, hname, htype, hnew⟩)⟩
  · -- The line starts with the brace that a header waits for.
    obtain ⟨hheader, hhead⟩ := Classical.not_imp.1 hbrace
    obtain ⟨header, hheader⟩ := Option.ne_none_iff_exists'.1 hheader
    obtain ⟨r, htrim⟩ := List.head?_eq_some_iff.1 (not_not.1 hhead)
    rw [step, htrim, hheader]
    rfl

/-! ## Where references come from -/

theorem mem_links_of_step (h : l ∈ (d.step code).1.links) :
    l ∈ d.links ∨ ∃ refs, d.Writes code refs ∧ ∃ r ∈ refs, r.link? = some l := by
  by_cases hsame : (d.step code).1.links = d.links
  · exact .inl (hsame ▸ h)
  · obtain ⟨refs, hwrites⟩ := writes_of_links hsame
    rw [hwrites.links, List.mem_append, List.mem_filterMap] at h
    exact h.imp_right fun hmade => ⟨refs, hwrites, hmade⟩

/-- When the line is read, a relation in it makes the reference. -/
def Makes (d : Draft) (line : List Char) (l : Link) : Prop :=
  ∃ at_ piece refs, d.Takes line at_ piece ∧ at_.Writes piece refs ∧ ∃ r ∈ refs, r.link? = some l

theorem mem_links_of_read (h : l ∈ (d.read line).links) : l ∈ d.links ∨ d.Makes line l := by
  -- What a line leaves to be read is shorter than the line.
  induction hn : line.length using Nat.strongRecOn generalizing d line with
  | ind n ih =>
    have hwhole : ∀ {d'}, (d.step line).1 = d' → l ∈ d'.links → l ∈ d.links ∨ d.Makes line l := by
      rintro _ rfl hmem
      refine (mem_links_of_step hmem).imp_right ?_
      rintro ⟨refs, hwrites, hmade⟩
      exact ⟨d, line, refs, .whole d line, hwrites, hmade⟩
    cases hstep : d.step line with
    | mk d' inner =>
      cases inner with
      | none =>
        rw [read_of_none hstep] at h
        exact hwhole (congrArg Prod.fst hstep) h
      | some inner =>
        have hinner : l ∈ (d'.read inner.text).links → l ∈ d.links ∨ d.Makes line l := by
          intro hmem
          rcases ih _ (hn ▸ step_shorter (congrArg Prod.snd hstep)) hmem rfl with hd' | hmade
          · exact hwhole (congrArg Prod.fst hstep) hd'
          · obtain ⟨at_, piece, refs, htakes, hwrites, hr⟩ := hmade
            exact .inr ⟨at_, piece, refs, .inner hstep htakes, hwrites, hr⟩
        rw [read_of_some hstep] at h
        split at h
        · rename_i hcloses
          rcases mem_links_of_step h with hmem | ⟨refs, hwrites, hr⟩
          · exact hinner hmem
          · exact .inr ⟨_, _, refs, .brace hstep hcloses, hwrites, hr⟩
        · exact hinner h

theorem mem_links_of_foldl {lines : List (List Char)} (h : l ∈ (lines.foldl read start).links) :
    ∃ before line after, lines = before ++ line :: after ∧ (before.foldl read start).Makes line l := by
  induction lines using List.reverseRecOn with
  | nil => cases h
  | append_singleton lines last ih =>
    rw [List.foldl_append, List.foldl_cons, List.foldl_nil] at h
    rcases mem_links_of_read h with h | hmade
    · obtain ⟨before, line, after, rfl, hmade⟩ := ih h
      exact ⟨before, line, after ++ [last], by simp, hmade⟩
    · exact ⟨lines, last, [], rfl, hmade⟩

theorem closeEach_links (d : Draft) (blocks : List Block) : (d.closeEach blocks).links = d.links := by
  induction blocks generalizing d with
  | nil => rfl
  | cons b blocks ih => rw [closeEach, ih, d.close_links_aliases.1]

theorem finish_links (d : Draft) (carry : Carry) : (d.finish carry).links = d.links := by
  unfold finish
  dsimp only
  split <;> split <;> first | rfl | exact closeEach_links _ _

end Draft

/-- Every reference of a text is made by a relation in it. -/
theorem exists_relation_of_link {text : List Char} {l : Link} (h : l ∈ (draft text).links) :
    ∃ at_ piece refs, Taken text at_ piece ∧ at_.Writes piece refs ∧ ∃ r ∈ refs, r.link? = some l := by
  rw [draft] at h
  dsimp only at h
  rw [Draft.finish_links] at h
  obtain ⟨before, line, after, hlines, at_, piece, refs, htakes, hmade⟩ := Draft.mem_links_of_foldl h
  exact ⟨at_, piece, refs, ⟨before, line, after, hlines, htakes⟩, hmade⟩

/-- The references of the relations on a line stand in the schema behind those of the text before. -/
theorem references_of_writes {text : List Char} {at_ : Draft} {piece : List Char} {refs : List Relation}
    (htaken : Taken text at_ piece) (hwrites : at_.Writes piece refs) :
    ∃ later, (draft text).links = at_.links ++ refs.filterMap Relation.link? ++ later := by
  obtain ⟨later, hlater⟩ := htaken.becomes.2.links
  exact ⟨later, by rw [← hlater, hwrites.links]⟩

/-- **A list of columns makes no reference if it is all that stands behind the last dot.** The references of a
schema are those that the relations in its text make, each in its place. A relation makes none exactly if it
has no child, or one of its endpoints has no table in front of its last dot or no column behind it; a list at
the end of an endpoint is no column, but one with a dot in it or behind it is cut there. -/
theorem column_lists_refer_iff {text : String} {schema : Schema} (hparse : (parse text).1 = some schema) :
    (∀ reference ∈ schema.references, ∃ at_ piece refs r l, Taken text.toList at_ piece ∧ at_.Writes piece refs ∧
      r ∈ refs ∧ r.link? = some l ∧ reference = (draft text.toList).reference l) ∧
    (∀ at_ piece refs, Taken text.toList at_ piece → at_.Writes piece refs → ∃ later, schema.references =
      (at_.links ++ refs.filterMap Relation.link? ++ later).map (draft text.toList).reference) ∧
    ∀ r : Relation,
      (r.link? = none ↔
        ∀ mark ends, r.parts? = some (mark, ends) → mark = .noChild ∨ ∃ s ∈ ends, NamesNoColumn s) ∧
      ∀ mark ends, r.parts? = some (mark, ends) → (∃ s ∈ ends, EndsWithList s) → r.link? = none := by
  have hschema : schema.references = (draft text.toList).links.map (draft text.toList).reference := by
    rw [schema_of_parse (Prod.ext hparse rfl)]
    rfl
  refine ⟨fun reference hmem => ?_, fun at_ piece refs htaken hwrites => ?_, fun r => ⟨?_, ?_⟩⟩
  · rw [hschema, List.mem_map] at hmem
    obtain ⟨l, hl, rfl⟩ := hmem
    obtain ⟨at_, piece, refs, htaken, hwrites, r, hr, hlink⟩ := exists_relation_of_link hl
    exact ⟨at_, piece, refs, r, l, htaken, hwrites, hr, hlink, rfl⟩
  · obtain ⟨later, hlinks⟩ := references_of_writes htaken hwrites
    exact ⟨later, by rw [hschema, hlinks]⟩
  · rw [r.link?_eq_none_iff]
    refine forall_congr' fun mark => forall_congr' fun ends => forall_congr' fun hparts => or_congr_right ?_
    refine exists_congr fun s => and_congr_right fun hs => ?_
    exact endpoint?_eq_none_iff (Relation.trim_of_mem_ends hparts s hs)
  · rintro mark ends hparts ⟨s, hs, hlist⟩
    refine (r.link?_eq_none_iff).2 fun mark' ends' hparts' => .inr ?_
    obtain ⟨rfl, rfl⟩ := Prod.mk.inj (Option.some.inj (hparts.symm.trans hparts'))
    exact ⟨s, hs, hlist.endpoint? (Relation.trim_of_mem_ends hparts s hs)⟩

/-- A catalog of two tables. -/
def pairCatalog : Catalog :=
  ⟨[⟨"a", [⟨"id", "int", .empty⟩]⟩, ⟨"b", [⟨"id", "int", .empty⟩]⟩], []⟩

theorem lists_of_columns_are_passed_over :
    (parse "Table a \x7b\n id int\n\x7d\nTable b \x7b\n id int\n\x7d\nRef: a.(id, x) > b.(id, y)").1 =
        some ⟨pairCatalog, []⟩ ∧
      (Relation.alone " a.(id, x) > b.(id, y)".toList).link? = none := by
  have hparse : (parse "Table a \x7b\n id int\n\x7d\nTable b \x7b\n id int\n\x7d\nRef: a.(id, x) > b.(id, y)").1 =
      some ⟨pairCatalog, []⟩ := by decide +kernel
  have hparts : (Relation.alone " a.(id, x) > b.(id, y)".toList).parts? =
      some (.leftIsChild, ["a.(id, x)".toList, "b.(id, y)".toList]) := by decide +kernel
  have hundotted : Undotted "id, x)".toList := List.all_iff_forall_prop.1 (by decide +kernel)
  have hlist : EndsWithList (['a'] ++ '.' :: '(' :: "id, x)".toList) := .behindDot (by decide) hundotted
  obtain ⟨-, -, hrelation⟩ := column_lists_refer_iff hparse
  exact ⟨hparse, (hrelation _).2 _ _ hparts ⟨_, List.mem_cons_self, hlist⟩⟩

/-- A list with a dot in it is cut there, and a reference to a table and a column that are not there is made. -/
theorem dotted_list_is_cut :
    '(' ∈ outside none "a.(a.id, a.x)".toList ∧
      (Relation.alone " a.(a.id, a.x) > b.id".toList).parts? =
        some (.leftIsChild, ["a.(a.id, a.x)".toList, "b.id".toList]) ∧
      (parse "Table a \x7b\n id int\n\x7d\nTable b \x7b\n id int\n\x7d\nRef: a.(a.id, a.x) > b.id").1 =
        some ⟨pairCatalog, [⟨"a_a_id_a", "x)", "b", "id"⟩]⟩ :=
  ⟨by decide +kernel, by decide +kernel, by decide +kernel⟩

end Dbml
end SeedData
