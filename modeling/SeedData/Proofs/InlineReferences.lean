/-
References that are written beside a column. Where a line adds a column to a table, the
references beside it come out in their order (`links_of_column`), each with the column on
its own side. The table on that side is the enclosing one unless an alias is spelled like
it (`inline_reference_belongs_iff`): the aliases of the whole text are looked up for it
as for any other table.
-/
import SeedData.Proofs.DraftHistory

namespace SeedData.Dbml

/-- The reference that a text beside a column makes, if it makes one. -/
def inlineLink? (here : Endpoint) (text : List Char) : Option Link := do
  let (mark, target) ← inlineRelation? text
  link? here mark (← endpoint? target)

/-- The texts of the references beside the column of a line. -/
def lineInlineTexts (line : List Char) : List (List Char) :=
  Draft.inlineTexts (Draft.settingEntries (Draft.columnText line).settings)

/-- The side of a reference that is the column it is written beside. -/
def Mark.own : Mark → Reference → ColumnRef
  | .rightIsChild, r => r.target
  | _, r => r.source

namespace Draft

variable {d : Draft} {here : Endpoint} {text line : List Char} {texts : List (List Char)} {t : Table}
  {spelled : String} {outer : List Block} {c : Column}

/-! ## What stays and what is added -/

theorem addLink_blocks (d : Draft) (left : Endpoint) (mark : Mark) (right : Endpoint) (text : List Char) :
    (d.addLink left mark right text).blocks = d.blocks := by
  unfold addLink
  split <;> rfl

theorem relation_blocks (d : Draft) (text : List Char) : (d.relation text).blocks = d.blocks := by
  unfold relation
  split
  · rfl
  · split
    · exact addLink_blocks _ _ _ _ _
    · rfl

theorem inlineRelation_blocks (d : Draft) (here : Endpoint) (text : List Char) :
    (d.inlineRelation here text).blocks = d.blocks := by
  unfold inlineRelation
  split
  · rfl
  · split
    · exact addLink_blocks _ _ _ _ _
    · rfl

theorem inlineRelations_blocks (d : Draft) (here : Endpoint) (texts : List (List Char)) :
    (texts.foldl (fun d text => d.inlineRelation here text) d).blocks = d.blocks := by
  induction texts generalizing d with
  | nil => rfl
  | cons text texts ih => rw [List.foldl_cons, ih, inlineRelation_blocks]

theorem addLink_links (d : Draft) (left : Endpoint) (mark : Mark) (right : Endpoint) (text : List Char) :
    (d.addLink left mark right text).links = d.links ++ (link? left mark right).toList := by
  unfold addLink
  cases link? left mark right with
  | none => simp [notice]
  | some l => rfl

theorem inlineRelation_links (d : Draft) (here : Endpoint) (text : List Char) :
    (d.inlineRelation here text).links = d.links ++ (inlineLink? here text).toList := by
  unfold inlineRelation inlineLink?
  cases inlineRelation? text with
  | none => simp [notice]
  | some p =>
    cases hend : endpoint? p.2 with
    | none => simp [notice, hend]
    | some target => simp [addLink_links, hend]

theorem inlineRelations_links (d : Draft) (here : Endpoint) (texts : List (List Char)) :
    (texts.foldl (fun d text => d.inlineRelation here text) d).links =
      d.links ++ texts.filterMap (inlineLink? here) := by
  induction texts generalizing d with
  | nil => simp
  | cons text texts ih =>
    rw [List.foldl_cons, ih, inlineRelation_links, List.append_assoc, List.filterMap_cons]
    cases inlineLink? here text <;> rfl

/-- Links are only added, behind those that there are. -/
theorem Becomes.links {d' : Draft} (h : d.Becomes d') : d.links <+: d'.links := by
  refine h.keeps (P := fun e => d.links <+: e.links) (fun a b hturn ha => ?_) (List.prefix_refl _)
  cases hturn with
  | link => exact ha.trans (List.prefix_append _ _)
  | close => exact a.close_links_aliases.1 ▸ ha
  | notice | await | giveUp | enter | enterAwaited | abbreviate | column | label | skip | skipped => exact ha

/-! ## Lines that add a column -/

/-- The innermost block is the table with one column more. -/
def Gained (t : Table) (spelled : String) (outer : List Block) (c : Column) (d : Draft) : Prop :=
  d.blocks = .table { t with columns := t.columns ++ [c] } spelled :: outer

theorem not_gained_of_same (h : d.blocks = .table t spelled :: outer) : ¬ d.Gained t spelled outer c := by
  intro hne
  rw [Gained, h] at hne
  simp only [List.cons.injEq, Block.table.injEq, and_true] at hne
  have hlen := congrArg (fun t : Table => t.columns.length) hne
  simp at hlen

theorem not_gained_of_entered {b : Block} (h : d.blocks = b :: .table t spelled :: outer) :
    ¬ d.Gained t spelled outer c := by
  intro hne
  have hlen := congrArg List.length (h.symm.trans hne)
  simp at hlen

theorem not_gained_of_closed (h : d.blocks = outer) : ¬ d.Gained t spelled outer c := by
  intro hne
  have hlen := congrArg List.length (h.symm.trans hne)
  simp at hlen

theorem not_gained_openOrWait {header : Block} (h : d.blocks = .table t spelled :: outer) :
    ¬ (d.openOrWait header line).1.Gained t spelled outer c := by
  unfold openOrWait
  split
  · exact not_gained_of_same h
  · exact not_gained_of_entered (congrArg (header :: ·) h)

theorem close_blocks_of_table (h : d.blocks = .table t spelled :: outer) : d.close.blocks = outer := by
  rw [close, h]
  exact addTable_blocks _ _

/-- A line that adds a column adds the references beside it. -/
theorem links_of_columnLine (h : d.blocks = .table t spelled :: outer)
    (hkept : (d.columnLine t spelled outer line).Gained t spelled outer c) :
    c = lineColumn line ∧ (d.columnLine t spelled outer line).links =
      d.links ++ (lineInlineTexts line).filterMap (inlineLink? ⟨spelled, c.name⟩) := by
  unfold columnLine at hkept ⊢
  dsimp only at hkept ⊢
  split at hkept
  · exact absurd hkept (not_gained_of_same h)
  · split at hkept
    · exact absurd hkept (not_gained_of_same h)
    · split at hkept
      · exact absurd hkept (not_gained_of_same h)
      · rename_i hname htype _ t' hpush
        obtain ⟨-, rfl⟩ := Table.pushColumn?_eq_some_iff.1 hpush
        rw [Gained, inlineRelations_blocks] at hkept
        obtain rfl : lineColumn line = c := by simpa [lineColumn] using hkept
        rw [if_neg hname, if_neg htype]
        exact ⟨rfl, inlineRelations_links _ _ _⟩

theorem links_of_tableLine (h : d.blocks = .table t spelled :: outer)
    (hkept : (d.tableLine t spelled outer line).1.Gained t spelled outer c) :
    c = lineColumn line ∧ (d.tableLine t spelled outer line).1.links =
      d.links ++ (lineInlineTexts line).filterMap (inlineLink? ⟨spelled, c.name⟩) := by
  unfold tableLine at hkept ⊢
  dsimp only at hkept ⊢
  split at hkept
  · exact absurd hkept (not_gained_of_closed (close_blocks_of_table h))
  · split at hkept
    · exact absurd hkept (not_gained_openOrWait h)
    · split at hkept
      · split at hkept
        · exact absurd hkept (not_gained_openOrWait h)
        · exact absurd hkept (not_gained_of_same h)
      · split at hkept
        · split at hkept
          · exact absurd hkept (not_gained_of_same (relation_blocks d _ ▸ h))
          · exact absurd hkept (not_gained_of_same h)
        · rename_i hclose hindexes hnote href
          rw [if_neg hclose, if_neg hindexes, if_neg hnote, if_neg href]
          exact links_of_columnLine h hkept

/-- A line that adds a column to the innermost table is the line of that column, and adds
the references beside it. -/
theorem links_of_column (h : d.blocks = .table t spelled :: outer)
    (hkept : (d.step line).1.Gained t spelled outer c) :
    c = lineColumn (Text.trim line) ∧ (d.step line).1.links =
      d.links ++ (lineInlineTexts (Text.trim line)).filterMap (inlineLink? ⟨spelled, c.name⟩) := by
  unfold step at hkept ⊢
  split at hkept
  · exact absurd hkept (not_gained_of_same h)
  · rename_i ch r htrim
    rw [htrim]
    -- The line is read in the table, from `d` or from `d` without a header that waited.
    have hline : ∀ e : Draft, e.blocks = .table t spelled :: outer → e.links = d.links →
        (e.lineIn (ch :: r)).1.Gained t spelled outer c →
        c = lineColumn (ch :: r) ∧ (e.lineIn (ch :: r)).1.links =
          d.links ++ (lineInlineTexts (ch :: r)).filterMap (inlineLink? ⟨spelled, c.name⟩) := by
      intro e he hlinks hkept
      unfold lineIn at hkept ⊢
      rw [he] at hkept ⊢
      rw [← hlinks]
      exact links_of_tableLine he hkept
    split at hkept
    · exact hline d h rfl hkept
    · rename_i header _
      split at hkept
      · exact absurd hkept (not_gained_of_entered (congrArg (header :: ·) h))
      · rename_i hbrace
        dsimp only
        rw [if_neg hbrace]
        exact hline _ h rfl hkept

end Draft

/-! ## Which lines add a column -/

/-- The line of a table is a column's: it closes no block, opens none, and is neither a remark nor a
reference. -/
def IsColumnLine (line : List Char) : Prop :=
  let keyword := leadingKeyword line
  line.head? ≠ some '\x7d' ∧ ¬ (keyword = "indexes".toList ∧ opensBlock keyword line) ∧
    ¬ (keyword = "note".toList ∧ isDirective keyword line) ∧
    ¬ (keyword = "ref".toList ∧ isDirective keyword line)

namespace Draft

variable {d : Draft} {t : Table} {spelled : String} {outer : List Block} {line code : List Char} {c : Column}

theorem gained_columnLine_iff (h : d.blocks = .table t spelled :: outer) :
    (d.columnLine t spelled outer line).Gained t spelled outer c ↔
      c = lineColumn line ∧ (columnText line).name ≠ [] ∧ (columnText line).dataType ≠ [] ∧
        c.name ∉ t.columns.map (·.name) := by
  unfold columnLine
  dsimp only
  split
  · rename_i hname
    exact ⟨fun hg => absurd hg (not_gained_of_same h), fun hg => absurd (List.isEmpty_iff.1 hname) hg.2.1⟩
  · split
    · rename_i htype
      exact ⟨fun hg => absurd hg (not_gained_of_same h), fun hg => absurd (List.isEmpty_iff.1 htype) hg.2.2.1⟩
    · rename_i hname htype
      rw [List.isEmpty_iff] at hname htype
      split
      · rename_i hpush
        refine ⟨fun hg => absurd hg (not_gained_of_same h), fun hg => ?_⟩
        obtain ⟨rfl, -, -, hnew⟩ := hg
        exact absurd (Table.pushColumn?_eq_some_iff.2 ⟨hnew, rfl⟩) (by rw [lineColumn, hpush]; simp)
      · rename_i hpush
        obtain ⟨hnew, rfl⟩ := Table.pushColumn?_eq_some_iff.1 hpush
        rw [Gained, inlineRelations_blocks]
        constructor
        · intro hg
          obtain rfl : lineColumn line = c := by simpa [lineColumn] using hg
          exact ⟨rfl, hname, htype, hnew⟩
        · rintro ⟨rfl, -⟩
          rfl

theorem gained_tableLine_iff (h : d.blocks = .table t spelled :: outer) :
    (d.tableLine t spelled outer line).1.Gained t spelled outer c ↔
      IsColumnLine line ∧ (d.columnLine t spelled outer line).Gained t spelled outer c := by
  unfold tableLine IsColumnLine
  dsimp only
  split
  · rename_i hclose
    exact ⟨fun hg => absurd hg (not_gained_of_closed (close_blocks_of_table h)), fun hg => absurd hclose hg.1.1⟩
  · split
    · rename_i hindexes
      exact ⟨fun hg => absurd hg (not_gained_openOrWait h), fun hg => absurd hindexes hg.1.2.1⟩
    · split
      · rename_i hnote
        refine ⟨fun hg => ?_, fun hg => absurd hnote hg.1.2.2.1⟩
        split at hg
        · exact absurd hg (not_gained_openOrWait h)
        · exact absurd hg (not_gained_of_same h)
      · split
        · rename_i href
          refine ⟨fun hg => ?_, fun hg => absurd href hg.1.2.2.2⟩
          split at hg
          · exact absurd hg (not_gained_of_same (relation_blocks d _ ▸ h))
          · exact absurd hg (not_gained_of_same h)
        · rename_i hclose hindexes hnote href
          exact ⟨fun hg => ⟨⟨hclose, hindexes, hnote, href⟩, hg⟩, And.right⟩

/-- When a line adds a column to the innermost table. -/
theorem gained_iff (h : d.blocks = .table t spelled :: outer) :
    (d.step code).1.Gained t spelled outer c ↔
      IsColumnLine (Text.trim code) ∧ (d.header ≠ none → (Text.trim code).head? ≠ some '\x7b') ∧
        c = lineColumn (Text.trim code) ∧ (columnText (Text.trim code)).name ≠ [] ∧
        (columnText (Text.trim code)).dataType ≠ [] ∧ c.name ∉ t.columns.map (·.name) := by
  have hline : ∀ e : Draft, e.blocks = .table t spelled :: outer →
      ((e.lineIn (Text.trim code)).1.Gained t spelled outer c ↔
        IsColumnLine (Text.trim code) ∧ c = lineColumn (Text.trim code) ∧ (columnText (Text.trim code)).name ≠ [] ∧
          (columnText (Text.trim code)).dataType ≠ [] ∧ c.name ∉ t.columns.map (·.name)) := by
    intro e he
    unfold lineIn
    rw [he]
    exact (gained_tableLine_iff he).trans (and_congr_right fun _ => gained_columnLine_iff he)
  unfold step
  split
  · rename_i htrim
    rw [htrim]
    exact ⟨fun hg => absurd hg (not_gained_of_same h), fun hg => absurd rfl hg.2.2.2.1⟩
  · rename_i ch r htrim
    rw [htrim] at hline ⊢
    split
    · rename_i hheader
      rw [hline d h]
      simp [hheader]
    · rename_i header hheader
      dsimp only
      split
      · rename_i hbrace
        refine ⟨fun hg => absurd hg (not_gained_of_entered (congrArg (header :: ·) h)), fun hg => ?_⟩
        exact absurd (congrArg some hbrace) (hg.2.1 (by simp [hheader]))
      · rename_i hbrace
        have he : (({ d with header := none } : Draft).notice
            (.headerWithoutBrace (String.ofList (ch :: r)))).blocks = .table t spelled :: outer := h
        rw [hline _ he]
        simp [hheader, hbrace]

end Draft

/-! ## The table on the column's own side -/

theorem Draft.resolve_eq_iff {d : Draft} {spelled : String} :
    d.resolve spelled = Identifier.normalize spelled ↔
      ∀ table, d.aliases.lookup spelled = some table → table = Identifier.normalize spelled := by
  unfold resolve
  cases d.aliases.lookup spelled <;> simp

/-- The own side of a reference beside a column is what the column's table and name mean. -/
theorem own_reference {d : Draft} {here other : Endpoint} {mark : Mark} {l : Link}
    (h : link? here mark other = some l) :
    mark.own (d.reference l) = ⟨d.resolve here.table, here.column⟩ := by
  cases mark with
  | noChild => cases h
  | leftIsChild | rightIsChild =>
    cases h
    rfl

/-- **A reference that is written beside a column has the column on its own side, in the
enclosing table exactly if no alias of the text is spelled like the table and stands for
another.** The references beside a column come in their order, behind those of the text
before. -/
theorem inline_reference_belongs_iff {text : String} {schema : Schema} {at_ : Draft} {line : List Char}
    {t : Table} {spelled : String} {outer : List Block} {c : Column} {before after : List (List Char)}
    {inline target : List Char} {mark : Mark} {other : Endpoint}
    (hparse : (parse text).1 = some schema) (htaken : Taken text.toList at_ line)
    (hblock : at_.blocks = .table t spelled :: outer) (hkept : (at_.step line).1.Gained t spelled outer c)
    (hinline : lineInlineTexts (Text.trim line) = before ++ inline :: after)
    (hwell : inlineRelation? inline = some (mark, target)) (hend : endpoint? target = some other)
    (hmark : mark ≠ .noChild) :
    ∃ r, schema.references[at_.links.length + (before.filterMap (inlineLink? ⟨spelled, c.name⟩)).length]? =
        some r ∧
      (mark.own r).column = c.name ∧ t.name = Identifier.normalize spelled ∧
      ((mark.own r).table = t.name ↔
        ∀ table, (draft text.toList).aliases.lookup spelled = some table → table = t.name) := by
  obtain ⟨hstart, hdraft⟩ := htaken.becomes
  have hsound : (Block.table t spelled).Sound :=
    (hstart.sound Draft.sound_start).blocks _ (hblock ▸ List.mem_cons_self)
  have hname : t.name = Identifier.normalize spelled := hsound.2
  obtain ⟨l, hl⟩ : ∃ l, link? ⟨spelled, c.name⟩ mark other = some l := by
    cases mark with
    | noChild => exact absurd rfl hmark
    | leftIsChild | rightIsChild => exact ⟨_, rfl⟩
  have hlink : inlineLink? ⟨spelled, c.name⟩ inline = some l := by
    simp [inlineLink?, hwell, hend, hl]
  obtain ⟨-, hlinks⟩ := Draft.links_of_column hblock hkept
  rw [hinline, List.filterMap_append, List.filterMap_cons, hlink] at hlinks
  obtain ⟨later, hlater⟩ := hdraft.links
  have hschema : schema = (draft text.toList).schema := schema_of_parse (Prod.ext hparse rfl)
  refine ⟨(draft text.toList).reference l, ?_, ?_, hname, ?_⟩
  · rw [hschema]
    show ((draft text.toList).links.map _)[_]? = _
    rw [← hlater, hlinks]
    simp
  · rw [own_reference hl]
  · rw [own_reference hl, hname]
    exact Draft.resolve_eq_iff

/-! ## Books and their authors -/

/-- The lines of a schema of books by authors, whose table has another name as well. -/
def bookLines (shortName : String) : List String :=
  ["Table authors as " ++ shortName ++ " \x7b", "\x7d", "Table books \x7b",
    "by int [pk, ref: > authors.id]", "\x7d"]

/-- The text of `bookLines`. -/
def booksText (shortName : String) : String := "\n".intercalate (bookLines shortName)

/-- The catalog that `booksText` writes. -/
def books : Catalog := ⟨[⟨"authors", []⟩, ⟨"books", [⟨"by", "int", ⟨[.primaryKey]⟩⟩]⟩], []⟩

theorem books_refer_to_authors : ∃ schema, (parse (booksText "writers")).1 = some schema ∧
    ∃ r ∈ schema.references, r.source.column = "by" ∧ r.source.table = "books" := by
  have hparse : (parse (booksText "writers")).1 = some ⟨books, [⟨"books", "by", "authors", "id"⟩]⟩ := by
    decide +kernel
  have hlines : (codeLines .code (Text.lines (booksText "writers").toList)).1 =
      ((bookLines "writers").take 3).map String.toList ++
        "by int [pk, ref: > authors.id]".toList :: ["\x7d".toList] := by decide +kernel
  have htaken : Taken (booksText "writers").toList _ "by int [pk, ref: > authors.id]".toList :=
    ⟨_, _, _, hlines, .whole _ _⟩
  have hblock : ((((bookLines "writers").take 3).map String.toList).foldl Draft.read .start).blocks =
      [.table ⟨"books", []⟩ "books"] := by decide +kernel
  have hkept : (((((bookLines "writers").take 3).map String.toList).foldl Draft.read .start).step
      "by int [pk, ref: > authors.id]".toList).1.blocks =
      [.table ⟨"books", [] ++ [⟨"by", "int", ⟨[.primaryKey]⟩⟩]⟩ "books"] := by decide +kernel
  have hinline : lineInlineTexts (Text.trim "by int [pk, ref: > authors.id]".toList) =
      [] ++ " > authors.id".toList :: [] := by decide +kernel
  have hwell : inlineRelation? " > authors.id".toList = some (.leftIsChild, "authors.id".toList) := by
    decide +kernel
  have hend : endpoint? "authors.id".toList = some ⟨"authors", "id"⟩ := by decide +kernel
  obtain ⟨r, hr, hcolumn, -, hiff⟩ :=
    inline_reference_belongs_iff hparse htaken hblock hkept hinline hwell hend (by decide)
  have hlookup : (draft (booksText "writers").toList).aliases.lookup "books" = none := by decide +kernel
  exact ⟨_, hparse, r, List.mem_of_getElem? hr, hcolumn, hiff.2 (by simp [hlookup])⟩

/-- An alias that is spelled like a table takes away the references beside its columns. -/
theorem alias_takes_inline_reference : (parse (booksText "books")).1 =
    some ⟨books, [⟨"authors", "by", "authors", "id"⟩]⟩ := by decide +kernel

end SeedData.Dbml
