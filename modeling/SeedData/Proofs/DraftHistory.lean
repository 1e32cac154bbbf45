/-
How a draft comes about. Whatever a line holds, reading it changes the draft in a few
ways only (`Draft.Turn`), and reading a text is a chain of them (`becomes_read`,
`becomes_draft`). What new blocks have and lines inside them keep (`Draft.Kept`) therefore
holds of every draft, such as that names are distinct (`Draft.Sound`).
-/
import Mathlib.Logic.Relation
import SeedData.Dbml.Parser
import SeedData.Proofs.PoolFacts
import SeedData.Proofs.Quotations

namespace SeedData

/-! ## Adding to a schema -/

theorem Table.pushColumn?_eq_some_iff {t t' : Table} {c : Column} :
    t.pushColumn? c = some t' ↔
      c.name ∉ t.columns.map (·.name) ∧ t' = { t with columns := t.columns ++ [c] } := by
  have hfind : (t.column? c.name).isSome ↔ c.name ∈ t.columns.map (·.name) := by simp [column?]
  unfold pushColumn?
  rw [← hfind]
  split
  · rename_i h
    simp [h]
  · rename_i h
    simp [h, eq_comm]

namespace Catalog

variable {t u : Table} {l : List Table}

theorem mem_of_mem_upsertInto (h : u ∈ upsertInto t l) : u = t ∨ u ∈ l := by
  induction l with
  | nil => exact .inl (List.mem_singleton.1 h)
  | cons v l ih =>
    rw [upsertInto] at h
    split at h
    · rcases List.mem_cons.1 h with h | h
      · exact .inl h
      · exact .inr (List.mem_cons_of_mem v h)
    · rcases List.mem_cons.1 h with rfl | h
      · exact .inr List.mem_cons_self
      · exact (ih h).imp_right (List.mem_cons_of_mem v)

/-- A table takes the place of the one of its name, or comes last. -/
theorem names_upsertInto (t : Table) (l : List Table) : (upsertInto t l).map (·.name) =
    if t.name ∈ l.map (·.name) then l.map (·.name) else l.map (·.name) ++ [t.name] := by
  induction l with
  | nil => rfl
  | cons u l ih =>
    rw [upsertInto]
    by_cases hu : u.name = t.name
    · simp [hu]
    · rw [if_neg hu, List.map_cons, ih]
      by_cases ht : t.name ∈ l.map (·.name)
      · simp [ht]
      · simp [ht, Ne.symm hu]

theorem upsertInto_of_new (h : t.name ∉ l.map (·.name)) : upsertInto t l = l ++ [t] := by
  induction l with
  | nil => rfl
  | cons u l ih =>
    rw [List.map_cons, List.mem_cons, not_or] at h
    rw [upsertInto, if_neg (Ne.symm h.1), ih h.2]
    rfl

theorem nodup_names_upsertInto (t : Table) (h : (l.map (·.name)).Nodup) :
    ((upsertInto t l).map (·.name)).Nodup := by
  rw [names_upsertInto]
  split
  · exact h
  · rename_i hnew
    rw [← List.concat_eq_append]
    exact h.concat hnew

theorem table?_upsert (c : Catalog) (t : Table) (name : String) :
    (c.upsert t).table? name = if name = t.name then some t else c.table? name := by
  show (upsertInto t c.tables).find? _ = _
  unfold table?
  induction c.tables with
  | nil => simp [upsertInto, eq_comm]
  | cons u l ih =>
    rw [upsertInto]
    by_cases hu : u.name = t.name
    · by_cases hname : t.name = name
      · simp [hu, hname]
      · simp [hu, hname, Ne.symm hname]
    · rw [if_neg hu]
      by_cases hname : u.name = name
      · subst hname
        simp [hu]
      · simp [hname, ih]

theorem Distinct.upsert {c : Catalog} (h : c.Distinct) (ht : (t.columns.map (·.name)).Nodup) :
    (c.upsert t).Distinct where
  tables := nodup_names_upsertInto t h.tables
  columns u hu := by
    rcases mem_of_mem_upsertInto hu with rfl | hu
    · exact ht
    · exact h.columns u hu

end Catalog

namespace Dbml

open Text (Tidy)

/-- The column that a line writes. -/
def lineColumn (line : List Char) : Column :=
  let text := Draft.columnText line
  ⟨String.ofList text.name, String.ofList text.dataType,
    Draft.columnSettings (Draft.settingEntries text.settings)⟩

/-- A block as it is opened, before its first line. -/
inductive Block.New : Block → Prop
  | table (spelled : String) : New (.table ⟨Identifier.normalize spelled, []⟩ spelled)
  | references : New .references
  | enum (name : String) : New (.enum ⟨name, []⟩)
  | skipped : New (.skipped 1)

namespace Draft

/-- What reading may do to a draft at once. -/
inductive Turn (d : Draft) : Draft → Prop
  | notice (n : Notice) : Turn d (d.notice n)
  | await {header : Block} : header.New → Turn d { d with header := some header }
  | giveUp : Turn d { d with header := none }
  | enter {block : Block} : block.New → Turn d (d.enter block)
  | enterAwaited {header : Block} :
      d.header = some header → Turn d ({ d with header := none }.enter header)
  | close : Turn d d.close
  | abbreviate (shortName spelled : String) :
      Turn d { d with aliases := (shortName, Identifier.normalize spelled) :: d.aliases }
  | link {l : Link} :
      Tidy l.child.column.toList → Tidy l.parent.column.toList → Turn d { d with links := d.links ++ [l] }
  | column {t t' : Table} {spelled : String} {outer : List Block} (line : List Char) :
      d.blocks = .table t spelled :: outer → (columnText line).name ≠ [] →
      (columnText line).dataType ≠ [] → t.pushColumn? (lineColumn line) = some t' →
      Turn d { d with blocks := .table t' spelled :: outer }
  | label {e : EnumType} {outer : List Block} {label : List Char} :
      d.blocks = .enum e :: outer → label ≠ [] →
      Turn d { d with blocks := .enum { e with labels := e.labels ++ [String.ofList label] } :: outer }
  | skip {depth : Nat} {outer : List Block} (depth' : Nat) :
      d.blocks = .skipped depth :: outer → Turn d { d with blocks := .skipped depth' :: outer }
  | skipped {depth : Nat} {outer : List Block} :
      d.blocks = .skipped depth :: outer → Turn d { d with blocks := outer }

/-- What a draft may become by further reading. -/
def Becomes : Draft → Draft → Prop := Relation.ReflTransGen Turn

variable {d d' : Draft} {line : List Char} {header : Block}

theorem Becomes.refl (d : Draft) : d.Becomes d := Relation.ReflTransGen.refl

theorem Turn.becomes (h : d.Turn d') : d.Becomes d' := Relation.ReflTransGen.single h

theorem Becomes.trans {d'' : Draft} (h : d.Becomes d') (h' : d'.Becomes d'') : d.Becomes d'' :=
  Relation.ReflTransGen.trans h h'

/-- What every turn keeps, reading keeps. -/
theorem Becomes.keeps {P : Draft → Prop} (h : d.Becomes d') (hkeep : ∀ a b, Turn a b → P a → P b)
    (hd : P d) : P d' := by
  induction h with
  | refl => exact hd
  | tail _ hturn ih => exact hkeep _ _ hturn ih

theorem becomes_notice (d : Draft) (n : Notice) : d.Becomes (d.notice n) := (Turn.notice n).becomes

/-! ## What the functions of the reader do -/

theorem tidy_of_endpoint? {text : List Char} {e : Endpoint} (h : endpoint? text = some e) :
    Tidy e.column.toList := by
  unfold endpoint? at h
  dsimp only at h
  split at h
  · rename_i column second others hparts
    have hmem : column ∈ (Text.splitOutside (· == '.') none (Text.trim text)).map Text.unquote := by
      rw [← List.mem_reverse, hparts]
      exact List.mem_cons_self
    obtain ⟨piece, -, rfl⟩ := List.mem_map.1 hmem
    split at h
    · cases h
    · rename_i hempty
      cases h
      rw [String.toList_ofList]
      exact Text.tidy_unquote fun hnil => hempty (by simp [hnil])
  · cases h

theorem becomes_addLink (d : Draft) {left right : Endpoint} (mark : Mark) (text : List Char)
    (hleft : Tidy left.column.toList) (hright : Tidy right.column.toList) :
    d.Becomes (d.addLink left mark right text) := by
  unfold addLink
  split
  · rename_i l hlink
    cases mark with
    | leftIsChild =>
      cases hlink
      exact (Turn.link hleft hright).becomes
    | rightIsChild =>
      cases hlink
      exact (Turn.link hright hleft).becomes
    | noChild => cases hlink
  · exact d.becomes_notice _

theorem becomes_relation (d : Draft) (text : List Char) : d.Becomes (d.relation text) := by
  unfold relation
  split
  · exact d.becomes_notice _
  · split
    · rename_i hleft hright
      exact d.becomes_addLink _ _ (tidy_of_endpoint? hleft) (tidy_of_endpoint? hright)
    · exact d.becomes_notice _

theorem becomes_inlineRelation (d : Draft) {here : Endpoint} (hhere : Tidy here.column.toList)
    (text : List Char) : d.Becomes (d.inlineRelation here text) := by
  unfold inlineRelation
  split
  · exact d.becomes_notice _
  · split
    · rename_i htarget
      exact d.becomes_addLink _ _ hhere (tidy_of_endpoint? htarget)
    · exact d.becomes_notice _

theorem becomes_inlineRelations (d : Draft) {here : Endpoint} (hhere : Tidy here.column.toList)
    (texts : List (List Char)) : d.Becomes (texts.foldl (fun d text => d.inlineRelation here text) d) := by
  induction texts generalizing d with
  | nil => exact .refl d
  | cons text texts ih => exact (d.becomes_inlineRelation hhere text).trans (ih _)

theorem tidy_lineColumn_name (h : (columnText line).name ≠ []) : Tidy (lineColumn line).name.toList := by
  rw [lineColumn, String.toList_ofList]
  exact Text.tidy_unquote h

theorem becomes_columnLine {t : Table} {spelled : String} {outer : List Block}
    (h : d.blocks = .table t spelled :: outer) : d.Becomes (d.columnLine t spelled outer line) := by
  unfold columnLine
  dsimp only
  split
  · exact d.becomes_notice _
  · rename_i hname
    split
    · exact d.becomes_notice _
    · rename_i htype
      split
      · exact d.becomes_notice _
      · rename_i t' hpush
        have hname : (columnText line).name ≠ [] := by simpa using hname
        have htype : (columnText line).dataType ≠ [] := by simpa using htype
        have hhere : Tidy (Endpoint.mk spelled (lineColumn line).name).column.toList :=
          tidy_lineColumn_name hname
        exact (Turn.column line h hname htype hpush).becomes.trans (becomes_inlineRelations _ hhere _)

theorem becomes_labelLine {e : EnumType} {outer : List Block} (h : d.blocks = .enum e :: outer) :
    d.Becomes (d.labelLine e outer line) := by
  unfold labelLine
  dsimp only
  split
  · exact .refl d
  · rename_i hlabel
    exact (Turn.label h (by simpa using hlabel)).becomes

theorem becomes_skippedLine {depth : Nat} {outer : List Block} (h : d.blocks = .skipped depth :: outer) :
    d.Becomes (d.skippedLine depth outer line) := by
  unfold skippedLine
  dsimp only
  split
  · exact (Turn.skipped h).becomes
  · exact (Turn.skip _ h).becomes

theorem becomes_openOrWait (d : Draft) (hnew : header.New) : d.Becomes (d.openOrWait header line).1 := by
  unfold openOrWait
  split
  · exact (Turn.await hnew).becomes
  · exact (Turn.enter hnew).becomes

theorem becomes_topLevelLine (d : Draft) (line : List Char) : d.Becomes (d.topLevelLine line).1 := by
  have hskip : ∀ (d : Draft) (n : Notice), d.Becomes ((d.notice n).openOrWait skippedBlock line).1 :=
    fun d n => (d.becomes_notice n).trans (becomes_openOrWait _ .skipped)
  unfold topLevelLine
  dsimp only
  split
  · unfold tableHeader
    split
    · exact hskip d _
    · split
      · exact d.becomes_openOrWait (.table _)
      · exact (Turn.abbreviate _ _).becomes.trans (becomes_openOrWait _ (.table _))
  · split
    · unfold refDirective
      split
      · split
        · exact d.becomes_relation _
        · exact d.becomes_openOrWait .references
      · exact d.becomes_openOrWait .references
    · split
      · unfold enumHeader
        split
        · exact hskip d _
        · exact d.becomes_openOrWait (.enum _)
      · split
        · exact d.becomes_notice _
        · split
          · exact hskip d _
          · split
            · exact .refl d
            · exact d.becomes_notice _

theorem becomes_tableLine {t : Table} {spelled : String} {outer : List Block}
    (h : d.blocks = .table t spelled :: outer) : d.Becomes (d.tableLine t spelled outer line).1 := by
  unfold tableLine
  dsimp only
  split
  · exact Turn.close.becomes
  · split
    · exact d.becomes_openOrWait .skipped
    · split
      · split
        · exact d.becomes_openOrWait .skipped
        · exact .refl d
      · split
        · split
          · exact d.becomes_relation _
          · exact .refl d
        · exact becomes_columnLine h

theorem becomes_lineIn (d : Draft) (line : List Char) : d.Becomes (d.lineIn line).1 := by
  unfold lineIn
  split
  · exact d.becomes_topLevelLine line
  · rename_i h
    exact becomes_skippedLine h
  · rename_i h
    exact becomes_tableLine h
  · split
    · exact Turn.close.becomes
    · exact d.becomes_relation line
  · rename_i h
    split
    · exact Turn.close.becomes
    · exact becomes_labelLine h

theorem becomes_step (d : Draft) (code : List Char) : d.Becomes (d.step code).1 := by
  unfold step
  split
  · exact .refl d
  · split
    · exact d.becomes_lineIn _
    · rename_i header h
      split
      · exact (Turn.enterAwaited h).becomes
      · exact Turn.giveUp.becomes.trans ((becomes_notice _ _).trans (becomes_lineIn _ _))

theorem becomes_closeEach (d : Draft) (blocks : List Block) : d.Becomes (d.closeEach blocks) := by
  induction blocks generalizing d with
  | nil => exact .refl d
  | cons b blocks ih => exact Turn.close.becomes.trans (ih _)

theorem becomes_finish (d : Draft) (carry : Carry) : d.Becomes (d.finish carry) := by
  unfold finish
  dsimp only
  split
  · split
    · exact d.becomes_notice _
    · exact (d.becomes_notice _).trans ((becomes_notice _ _).trans (becomes_closeEach _ _))
  · split
    · exact .refl d
    · exact (d.becomes_notice _).trans (becomes_closeEach _ _)

/-! ## Reading -/

theorem read_of_none (h : d.step line = (d', none)) : d.read line = d' := by
  rw [read]
  split
  · rename_i heq
    exact congrArg Prod.fst (heq.symm.trans h)
  · rename_i heq
    cases heq.symm.trans h

theorem read_of_some {inner : Inner} (h : d.step line = (d', some inner)) :
    d.read line =
      if inner.closes then ((d'.read inner.text).step ['\x7d']).1 else d'.read inner.text := by
  rw [read]
  split
  · rename_i heq
    cases heq.symm.trans h
  · rename_i heq
    cases heq.symm.trans h
    rfl

/-- When `line` is read from `d`, it is `at_` that takes the part `piece` of it: the line
as a whole, what stands behind its brace, or the brace that closes it. -/
inductive Takes : Draft → List Char → Draft → List Char → Prop
  | whole (d : Draft) (line : List Char) : Takes d line d line
  | inner {d d' at_ : Draft} {line piece : List Char} {inner : Inner} :
      d.step line = (d', some inner) → Takes d' inner.text at_ piece → Takes d line at_ piece
  | brace {d d' : Draft} {line : List Char} {inner : Inner} :
      d.step line = (d', some inner) → inner.closes = true →
      Takes d line (d'.read inner.text) ['\x7d']

theorem becomes_read (d : Draft) (line : List Char) : d.Becomes (d.read line) := by
  -- What a line leaves to be read is shorter than the line.
  induction hn : line.length using Nat.strongRecOn generalizing d line with
  | ind n ih =>
    have hstep := d.becomes_step line
    obtain ⟨⟨d', inner⟩, h⟩ : ∃ s, d.step line = s := ⟨_, rfl⟩
    rw [h] at hstep
    cases inner with
    | none =>
      rw [read_of_none h]
      exact hstep
    | some inner =>
      have hinner := ih _ (hn ▸ step_shorter (by rw [h])) d' inner.text rfl
      rw [read_of_some h]
      split
      · exact hstep.trans (hinner.trans (becomes_step _ _))
      · exact hstep.trans hinner

theorem Takes.becomes {at_ : Draft} {piece : List Char} (h : Takes d line at_ piece) :
    d.Becomes at_ ∧ (at_.step piece).1.Becomes (d.read line) := by
  induction h with
  | whole d line =>
    refine ⟨.refl d, ?_⟩
    obtain ⟨⟨d', inner⟩, h⟩ : ∃ s, d.step line = s := ⟨_, rfl⟩
    cases inner with
    | none =>
      rw [read_of_none h, h]
      exact .refl d'
    | some inner =>
      rw [read_of_some h, h]
      split
      · exact (d'.becomes_read inner.text).trans (becomes_step _ _)
      · exact d'.becomes_read inner.text
  | @inner d d' at_ line piece inner h _ ih =>
    have hstep := d.becomes_step line
    rw [h] at hstep
    refine ⟨hstep.trans ih.1, ih.2.trans ?_⟩
    rw [read_of_some h]
    split
    · exact becomes_step _ _
    · exact .refl _
  | @brace d d' line inner h hcloses =>
    have hstep := d.becomes_step line
    rw [h] at hstep
    refine ⟨hstep.trans (becomes_read d' inner.text), ?_⟩
    rw [read_of_some h, if_pos hcloses]
    exact .refl _

theorem becomes_foldl_read (d : Draft) (lines : List (List Char)) : d.Becomes (lines.foldl read d) := by
  induction lines generalizing d with
  | nil => exact .refl d
  | cons line lines ih => exact (d.becomes_read line).trans (ih _)

end Draft

/-! ## Whole texts -/

/-- When the text is read, it is the draft `at_` that takes the piece of it. -/
def Taken (text : List Char) (at_ : Draft) (piece : List Char) : Prop :=
  ∃ before line after, (codeLines .code (Text.lines text)).1 = before ++ line :: after ∧
    (before.foldl Draft.read .start).Takes line at_ piece

theorem becomes_draft (text : List Char) : Draft.start.Becomes (draft text) :=
  (Draft.becomes_foldl_read _ _).trans (Draft.becomes_finish _ _)

theorem Taken.becomes {text piece : List Char} {at_ : Draft} (h : Taken text at_ piece) :
    Draft.start.Becomes at_ ∧ (at_.step piece).1.Becomes (draft text) := by
  obtain ⟨before, line, after, hlines, htakes⟩ := h
  obtain ⟨hbefore, hafter⟩ := htakes.becomes
  refine ⟨(Draft.becomes_foldl_read _ _).trans hbefore, hafter.trans ?_⟩
  rw [draft]
  dsimp only
  rw [hlines, List.foldl_append, List.foldl_cons]
  exact (Draft.becomes_foldl_read _ _).trans (Draft.becomes_finish _ _)

/-! ## What holds on the way -/

/-- `P` holds of the open blocks of a draft and of the one that waits for its brace, and `C`
of the schema so far. -/
structure Draft.Holds (P : Block → Prop) (C : Catalog → Prop) (d : Draft) : Prop where
  catalog : C d.catalog
  blocks : ∀ b ∈ d.blocks, P b
  header : ∀ b, d.header = some b → P b

/-- New blocks have `P`, lines inside a block keep it, and closing a block that has it keeps
`C`. -/
structure Draft.Kept (P : Block → Prop) (C : Catalog → Prop) : Prop where
  new : ∀ b : Block, b.New → P b
  column : ∀ (line : List Char) (t t' : Table) (spelled : String), (columnText line).name ≠ [] →
    (columnText line).dataType ≠ [] → t.pushColumn? (lineColumn line) = some t' →
    P (.table t spelled) → P (.table t' spelled)
  label : ∀ (e : EnumType) (label : List Char), label ≠ [] → P (.enum e) →
    P (.enum { e with labels := e.labels ++ [String.ofList label] })
  skipped : ∀ depth, P (.skipped depth)
  upsert : ∀ (c : Catalog) (t : Table) (spelled : String), P (.table t spelled) → C c → C (c.upsert t)
  replaceEnum : ∀ (c : Catalog) (e : EnumType), P (.enum e) → C c → C (c.replaceEnum e)

namespace Draft

variable {d d' : Draft} {P : Block → Prop} {C : Catalog → Prop}

theorem addTable_blocks (d : Draft) (t : Table) : (d.addTable t).blocks = d.blocks := by
  unfold addTable
  dsimp only
  split <;> rfl

theorem addTable_header (d : Draft) (t : Table) : (d.addTable t).header = d.header := by
  unfold addTable
  dsimp only
  split <;> rfl

theorem addTable_catalog (d : Draft) (t : Table) : (d.addTable t).catalog = d.catalog.upsert t := by
  unfold addTable
  dsimp only
  split <;> rfl

/-- Closing a block leaves spelled references and aliases alone. -/
theorem close_links_aliases (d : Draft) : d.close.links = d.links ∧ d.close.aliases = d.aliases := by
  unfold close
  split
  · exact ⟨rfl, rfl⟩
  · unfold addTable
    dsimp only
    split <;> exact ⟨rfl, rfl⟩
  · exact ⟨rfl, rfl⟩
  · exact ⟨rfl, rfl⟩

theorem Holds.close (h : d.Holds P C) (hkept : Kept P C) : d.close.Holds P C := by
  unfold Draft.close
  split
  · exact h
  · rename_i t spelled outer hblocks
    have hb := hblocks ▸ h.blocks
    refine ⟨?_, ?_, ?_⟩
    · rw [addTable_catalog]
      exact hkept.upsert _ _ _ (hb _ List.mem_cons_self) h.catalog
    · rw [addTable_blocks]
      exact fun b hmem => hb b (List.mem_cons_of_mem _ hmem)
    · rw [addTable_header]
      exact h.header
  · rename_i e outer hblocks
    have hb := hblocks ▸ h.blocks
    exact ⟨hkept.replaceEnum _ _ (hb _ List.mem_cons_self) h.catalog,
      fun b hmem => hb b (List.mem_cons_of_mem _ hmem), h.header⟩
  · rename_i b outer _ _ hblocks
    have hb := hblocks ▸ h.blocks
    exact ⟨h.catalog, fun b hmem => hb b (List.mem_cons_of_mem _ hmem), h.header⟩

theorem Holds.turn (h : d.Holds P C) (hkept : Kept P C) (hturn : d.Turn d') : d'.Holds P C := by
  -- A draft whose innermost block is another one.
  have hinner : ∀ {b b' : Block} {outer : List Block}, d.blocks = b :: outer → (P b → P b') →
      Holds P C { d with blocks := b' :: outer } := by
    intro b b' outer hblocks hb
    have hall := hblocks ▸ h.blocks
    refine ⟨h.catalog, fun c hc => ?_, h.header⟩
    rcases List.mem_cons.1 hc with rfl | hc
    · exact hb (hall b List.mem_cons_self)
    · exact hall c (List.mem_cons_of_mem b hc)
  cases hturn with
  | notice | abbreviate | link => exact ⟨h.catalog, h.blocks, h.header⟩
  | giveUp => exact ⟨h.catalog, h.blocks, by simp⟩
  | await hnew => exact ⟨h.catalog, h.blocks, fun b hb => Option.some.inj hb ▸ hkept.new _ hnew⟩
  | enter hnew =>
    refine ⟨h.catalog, fun b hb => ?_, h.header⟩
    rcases List.mem_cons.1 hb with rfl | hb
    · exact hkept.new _ hnew
    · exact h.blocks b hb
  | enterAwaited hheader =>
    refine ⟨h.catalog, fun b hb => ?_, by simp [Draft.enter]⟩
    rcases List.mem_cons.1 hb with rfl | hb
    · exact h.header _ hheader
    · exact h.blocks b hb
  | close => exact h.close hkept
  | column line hblocks hname htype hpush => exact hinner hblocks (hkept.column line _ _ _ hname htype hpush)
  | label hblocks hlabel => exact hinner hblocks (hkept.label _ _ hlabel)
  | skip depth' hblocks => exact hinner hblocks fun _ => hkept.skipped depth'
  | skipped hblocks =>
    exact ⟨h.catalog, fun b hb => h.blocks b (hblocks ▸ List.mem_cons_of_mem _ hb), h.header⟩

theorem Becomes.holds (h : d.Becomes d') (hkept : Kept P C) (hd : d.Holds P C) : d'.Holds P C :=
  h.keeps (fun _ _ hturn ha => ha.turn hkept hturn) hd

theorem holds_start (hempty : C .empty) : start.Holds P C where
  catalog := hempty
  blocks := by simp [start]
  header := by simp [start]

end Draft

/-! ## Distinct names -/

/-- The columns of a table block have different names, and its table goes by the
identifier of what its name is spelled as. -/
def Block.Sound : Block → Prop
  | .table t spelled => (t.columns.map (·.name)).Nodup ∧ t.name = Identifier.normalize spelled
  | _ => True

/-- What holds of every draft on the way: names are distinct. -/
abbrev Draft.Sound (d : Draft) : Prop := d.Holds Block.Sound Catalog.Distinct

namespace Draft

variable {d d' : Draft}

theorem kept_sound : Kept Block.Sound Catalog.Distinct where
  new b hb := by
    cases hb with
    | table => exact ⟨List.nodup_nil, rfl⟩
    | references | enum | skipped => trivial
  column line t t' spelled _ _ hpush ht := by
    obtain ⟨hnew, rfl⟩ := Table.pushColumn?_eq_some_iff.1 hpush
    refine ⟨?_, ht.2⟩
    rw [List.map_append, List.map_singleton, ← List.concat_eq_append]
    exact ht.1.concat hnew
  label _ _ _ _ := trivial
  skipped _ := trivial
  upsert _ _ _ ht hc := hc.upsert ht.1
  replaceEnum _ _ _ hc := ⟨hc.tables, hc.columns⟩

theorem sound_start : start.Sound := holds_start ⟨List.nodup_nil, by simp [Catalog.empty]⟩

theorem Becomes.sound (h : d.Becomes d') (hd : d.Sound) : d'.Sound := h.holds kept_sound hd

end Draft

theorem sound_draft (text : List Char) : (draft text).Sound := (becomes_draft text).sound Draft.sound_start

/-- The schema of a text is that of its draft. -/
theorem schema_of_parse {text : String} {schema : Schema} {notices : List Notice}
    (h : parse text = (some schema, notices)) : schema = (draft text.toList).schema := by
  unfold parse at h
  dsimp only at h
  split at h
  · cases h
  · exact (Option.some.inj (Prod.mk.inj h).1).symm

/-- In the schema of a text the tables have different names, and so have the columns of
each. -/
theorem distinct_of_parse {text : String} {schema : Schema} {notices : List Notice}
    (h : parse text = (some schema, notices)) : schema.catalog.Distinct := by
  rw [schema_of_parse h]
  exact (sound_draft text.toList).catalog

end Dbml
end SeedData
