/-
The brace of a block on the line below its header. A line that ends with the brace of its block is read as
the same block without the brace, which then waits (`lineIn_below`), so that the brace can as well stand on
a line of its own (`brace_below`). The exception is a remark in a table: without its brace it is not one, so
that the two lines count for nothing and what stands in the block is read as columns.
-/
import SeedData.Proofs.ArrayColumns
import SeedData.Proofs.EndpointText
import SeedData.Proofs.LineByLine

namespace SeedData.Dbml

open Text

variable {s w x y : List Char} {c : Char}

/-! ## Lines with and without a brace at the end -/

/-- Blanks and an opening brace. -/
def BraceEnd (y : List Char) : Prop := ∃ blanks, (∀ c ∈ blanks, isBlank c = true) ∧ y = blanks ++ ['\x7b']

/-- What stands at the end of a text is at the end of all that it ends with. -/
theorem last_of_suffix {p : Char → Prop} (h : ∀ c ∈ s.getLast?, p c) (hx : x <:+ s) : ∀ c ∈ x.getLast?, p c := by
  obtain ⟨front, rfl⟩ := hx
  intro c hc
  exact h c (by rw [List.getLast?_append, Option.mem_def.1 hc]; rfl)

/-- A text that does not end with a blank is not all blank. -/
theorem trimLeft_append_of_last (hne : s ≠ []) (hlast : ∀ c ∈ s.getLast?, isBlank c = false) (y : List Char) :
    trimLeft (s ++ y) = trimLeft s ++ y ∧ trimLeft s ≠ [] := by
  obtain ⟨front, c, rfl⟩ : ∃ front c, s = front ++ [c] := ⟨_, _, (List.dropLast_concat_getLast hne).symm⟩
  have hc : isBlank c = false := hlast c List.getLast?_concat
  constructor
  · rw [List.append_assoc, List.singleton_append, trimLeft_append_cons hc, trimLeft_append_cons hc,
      List.append_assoc]
    rfl
  · rw [trimLeft_append_cons hc]
    simp

namespace BraceEnd

theorem trimLeft (h : BraceEnd y) : trimLeft y = ['\x7b'] := by
  obtain ⟨blanks, hblank, rfl⟩ := h
  rw [Text.trimLeft, List.dropWhile_append_of_pos hblank]
  rfl

theorem stops (h : BraceEnd y) : ∀ c ∈ y, isQuote c = false ∧ isNameChar c = false := by
  obtain ⟨blanks, hblank, rfl⟩ := h
  intro c hc
  rcases List.mem_append.1 hc with hc | hc
  · exact ⟨isQuote_of_isBlank (hblank c hc), by simp [isNameChar, hblank c hc]⟩
  · obtain rfl := List.mem_singleton.1 hc
    decide

/-- The first character is no letter. -/
theorem cons (h : BraceEnd y) : ∃ c r, y = c :: r ∧ (isBlank c = true ∨ c = '\x7b') := by
  obtain ⟨blanks, hblank, rfl⟩ := h
  cases blanks with
  | nil => exact ⟨_, _, rfl, .inr rfl⟩
  | cons c blanks => exact ⟨_, _, rfl, .inl (hblank c List.mem_cons_self)⟩

end BraceEnd

theorem not_alphanum_of_isBlank (hblank : isBlank c = true) : (c.isAlphanum || c == '_') = false := by
  have hword : c.isAlphanum = ((decide (0x41 ≤ c.toNat ∧ c.toNat ≤ 0x5A) || 0x61 ≤ c.toNat && c.toNat ≤ 0x7A) ||
    0x30 ≤ c.toNat && c.toNat ≤ 0x39) := rfl
  have hlow : (c == '_') = false := beq_false_of_ne (ne_of_isBlank hblank (by decide))
  rw [hlow, Bool.or_false, hword, Bool.eq_false_iff]
  simp only [isBlank, Bool.or_eq_true, Bool.and_eq_true, decide_eq_true_eq, beq_iff_eq] at hblank
  simp only [ne_eq, Bool.or_eq_true, Bool.and_eq_true, decide_eq_true_eq]
  omega

theorem BraceEnd.leadingKeyword (h : BraceEnd y) (w : List Char) : leadingKeyword (w ++ y) = leadingKeyword w := by
  obtain ⟨c, r, rfl, hc | rfl⟩ := h.cons
  · exact leadingKeyword_append (not_alphanum_of_isBlank hc) w r
  · exact leadingKeyword_append (by decide) w r

/-! ## Names -/

theorem suffix_of_afterAs? (h : afterAs? s = some x) : x <:+ s := by
  unfold afterAs? at h
  split at h
  · split at h
    · cases h
      exact ⟨[_, _], rfl⟩
    · cases h
  · cases h

theorem suffix_of_nameAfterBlank? {name : List Char × List Char} (h : nameAfterBlank? s = some name) :
    name.2 <:+ s := by
  unfold nameAfterBlank? at h
  split at h
  · rename_i c r
    split at h
    · dsimp only at h
      split at h
      · cases h
      · cases h
        have hrest : (takeName (trimLeft (c :: r))).2 <:+ trimLeft (c :: r) :=
          ⟨_, takeAtoms_append quoteCloser isNameChar none _⟩
        exact hrest.trans (List.dropWhile_suffix isBlank)
    · cases h
  · cases h

/-- Nothing is taken of what stops a run of atoms and closes none. -/
theorem takeAtoms_append_stops {closer : Char → Option Char} {bare : Char → Bool} {enclosed : Option Char}
    (hy : ∀ c ∈ y, closer c = none ∧ bare c = false ∧ ∀ d, closer d ≠ some c)
    (hclosed : ∀ close ∈ enclosed, close ∈ s) : takeAtoms closer bare enclosed (s ++ y) =
      ((takeAtoms closer bare enclosed s).1, (takeAtoms closer bare enclosed s).2 ++ y) := by
  induction s generalizing enclosed with
  | nil =>
    cases enclosed with
    | some close => exact absurd (hclosed close rfl) List.not_mem_nil
    | none =>
      cases y with
      | nil => rfl
      | cons c y =>
        obtain ⟨hcloser, hbare, -⟩ := hy c List.mem_cons_self
        simp [takeAtoms, hcloser, hbare]
  | cons c s ih =>
    cases enclosed with
    | some close =>
      rw [List.cons_append, takeAtoms, takeAtoms, ih]
      intro close' hclose
      split at hclose
      · cases hclose
      · rename_i hc
        obtain rfl : close = close' := by simpa using hclose
        exact (List.mem_cons.1 (hclosed close rfl)).resolve_left (Ne.symm hc)
    | none =>
      rw [List.cons_append, takeAtoms, takeAtoms]
      cases hcloser : closer c with
      | some close =>
        have hnot : close ∉ y := fun hmem => (hy close hmem).2.2 c hcloser
        have hsame : (s ++ y).contains close = s.contains close := by simp [hnot]
        dsimp only
        rw [hsame]
        split
        · rename_i hs
          rw [ih (by simpa using hs)]
        · rfl
      | none =>
        dsimp only
        split
        · rw [ih (by simp)]
        · rfl

namespace BraceEnd

variable (hy : BraceEnd y)
include hy

theorem takeName (s : List Char) : takeName (s ++ y) = ((takeName s).1, (takeName s).2 ++ y) := by
  refine takeAtoms_append_stops (fun c hc => ?_) (by simp)
  obtain ⟨hquote, hname⟩ := hy.stops c hc
  refine ⟨by simp [quoteCloser, hquote], hname, fun d hd => ?_⟩
  unfold quoteCloser at hd
  split at hd
  · rename_i hd'
    obtain rfl : d = c := by simpa using hd
    rw [hquote] at hd'
    cases hd'
  · cases hd

theorem nameAfterBlank? (hlast : ∀ c ∈ s.getLast?, isBlank c = false) :
    nameAfterBlank? (s ++ y) = (nameAfterBlank? s).map fun name => (name.1, name.2 ++ y) := by
  unfold Dbml.nameAfterBlank?
  cases s with
  | nil =>
    have htrim := hy.trimLeft
    obtain ⟨c, r, rfl, -⟩ := hy.cons
    rw [List.nil_append]
    dsimp only
    rw [htrim]
    split <;> rfl
  | cons c s =>
    obtain ⟨htrim, -⟩ := trimLeft_append_of_last (by simp) hlast y
    rw [List.cons_append] at htrim ⊢
    dsimp only
    rw [htrim, hy.takeName]
    split
    · split <;> rfl
    · rfl

theorem afterAs? (hne : s ≠ []) : afterAs? (s ++ y) = (afterAs? s).map (· ++ y) := by
  match s with
  | [a] =>
    obtain ⟨c, r, rfl, hc⟩ := hy.cons
    have hs : (c == 's' || c == 'S' || c == '\u017f') = false := by
      rcases hc with hc | rfl
      · have hne : ∀ d, isBlank d = false → (c == d) = false := fun d hd => beq_false_of_ne (ne_of_isBlank hc hd)
        rw [hne 's' (by decide), hne 'S' (by decide), hne '\u017f' (by decide)]
        rfl
      · decide
    simp only [Dbml.afterAs?, List.singleton_append, hs, Bool.and_false, Bool.false_eq_true, if_false]
    rfl
  | a :: b :: s =>
    simp only [Dbml.afterAs?, List.cons_append]
    split <;> rfl

theorem alias? (hlast : ∀ c ∈ s.getLast?, isBlank c = false) : alias? (s ++ y) = alias? s := by
  unfold Dbml.alias?
  cases s with
  | nil =>
    have htrim := hy.trimLeft
    obtain ⟨c, r, rfl, -⟩ := hy.cons
    rw [List.nil_append]
    dsimp only
    rw [htrim]
    split <;> rfl
  | cons c s =>
    obtain ⟨htrim, hne⟩ := trimLeft_append_of_last (by simp) hlast y
    rw [List.cons_append] at htrim ⊢
    dsimp only
    rw [htrim, hy.afterAs? hne]
    cases hafter : Dbml.afterAs? (Text.trimLeft (c :: s)) with
    | none => rfl
    | some rest =>
      have hrest := last_of_suffix hlast ((suffix_of_afterAs? hafter).trans (List.dropWhile_suffix isBlank))
      cases hname : Dbml.nameAfterBlank? rest <;> simp [hy.nameAfterBlank? hrest, hname]

/-- A header is for the same table without the brace at its end. -/
theorem tableHeader? (hlen : 5 ≤ w.length) (hlast : ∀ c ∈ w.getLast?, isBlank c = false) :
    tableHeader? (w ++ y) = tableHeader? w := by
  have hdrop := last_of_suffix hlast (List.drop_suffix 5 w)
  rw [Dbml.tableHeader?, Dbml.tableHeader?, List.drop_append_of_le_length hlen, hy.nameAfterBlank? hdrop]
  cases hname : Dbml.nameAfterBlank? (w.drop 5) with
  | none => rfl
  | some name =>
    have hrest := last_of_suffix hdrop (suffix_of_nameAfterBlank? hname)
    simp [hy.alias? hrest]

theorem enumHeader? (hlen : 4 ≤ w.length) (hlast : ∀ c ∈ w.getLast?, isBlank c = false) :
    enumHeader? (w ++ y) = enumHeader? w := by
  have hdrop := last_of_suffix hlast (List.drop_suffix 4 w)
  rw [Dbml.enumHeader?, Dbml.enumHeader?, List.drop_append_of_le_length hlen, hy.nameAfterBlank? hdrop]
  cases Dbml.nameAfterBlank? (w.drop 4) <;> rfl

end BraceEnd

/-! ## Headers -/

section Marks

variable {p : Char → Bool} {line header rest : List Char}

/-- Where a line breaks at a brace, it has none outside quotations before. -/
theorem opening_of_break (hp : ∀ c, p c = false → isOpening c = false)
    (h : breakOutside p none line = (header, '\x7b' :: rest)) :
    breakOutside isOpening none line = (header, '\x7b' :: rest) := by
  obtain ⟨hnone, hclosed, hquote, -⟩ := of_breakOutside h
  have hline := breakOutside_append p none line
  rw [h] at hline
  rw [← hline]
  exact breakOutside_at (fun c hc => hp c (hnone c hc)) hclosed hquote (by decide) rest

/-- What stands before the brace at the end of a line that breaks there has no mark outside quotations. -/
theorem unmarked_of_break (hy : BraceEnd y) (h : breakOutside p none (w ++ y) = (header, ['\x7b'])) :
    ∀ c ∈ outside none w, p c = false := by
  obtain ⟨blanks, -, rfl⟩ := hy
  obtain ⟨hnone, -⟩ := of_breakOutside h
  have hline := breakOutside_append p none (w ++ (blanks ++ ['\x7b']))
  rw [h, ← List.append_assoc] at hline
  obtain ⟨rfl, -⟩ := List.append_inj' hline rfl
  rw [outside_append] at hnone
  exact fun c hc => hnone c (List.mem_append_left _ hc)

/-- If the first mark in a line that opens a block at its end is the brace, there is none before it. -/
theorem unmarked_of_opened (hp : ∀ c, p c = false → isOpening c = false) (hy : BraceEnd y)
    (hopened : breakOutside isOpening none (w ++ y) = (header, ['\x7b']))
    (hfirst : ∀ c ∈ (breakOutside p none (w ++ y)).2.head?, c = '\x7b') : ∀ c ∈ outside none w, p c = false := by
  cases hbreak : breakOutside p none (w ++ y) with
  | mk before rest =>
    rw [hbreak] at hfirst
    cases rest with
    | nil =>
      have hnone := of_breakOutside_nil (congrArg Prod.snd hbreak)
      rw [outside_append] at hnone
      exact fun c hc => hnone c (List.mem_append_left _ hc)
    | cons c rest =>
      obtain rfl : c = '\x7b' := hfirst c rfl
      rw [opening_of_break hp hbreak] at hopened
      obtain ⟨rfl, hrest⟩ := Prod.mk.inj hopened
      rw [hrest] at hbreak
      exact unmarked_of_break hy hbreak

/-- The marks that end the header of a block or of a relation. -/
def endsHeader (c : Char) : Bool := c == ':' || c == '\x7b'

theorem endsHeader_eq : endsHeader = fun c => c == ':' || c == '\x7b' := rfl

theorem isOpening_of_endsHeader (c : Char) (h : endsHeader c = false) : isOpening c = false := by
  simp only [endsHeader, Bool.or_eq_false_iff] at h
  exact h.2

end Marks

namespace Draft

variable {d e : Draft} {block : Block}

/-- A draft that waits for a brace reads one. -/
theorem read_brace (hheader : d.header = none) (block : Block) :
    ({ d with header := some block } : Draft).read ['\x7b'] = d.enter block := by
  have hstep : ({ d with header := some block } : Draft).step ['\x7b'] =
      ({ d with header := none }.enter block, some ⟨[], false⟩) := rfl
  have hsame : ({ d with header := none } : Draft) = d := by rw [← hheader]
  rw [read_of_some hstep, if_neg Bool.false_ne_true, hsame]
  exact read_blank rfl

/-- A line that opens a block at its end has one brace outside quotations, there. -/
theorem opened_of_openOrWait {line : List Char} (h : (d.openOrWait block line).2 = some ⟨[], false⟩) :
    ∃ header, breakOutside isOpening none line = (header, ['\x7b']) := by
  cases hbreak : breakOutside isOpening none line with
  | mk header rest =>
    cases rest with
    | nil =>
      rw [openOrWait_of_unopened hbreak] at h
      cases h
    | cons c inner =>
      obtain ⟨-, -, -, hc⟩ := of_breakOutside hbreak
      obtain rfl : c = '\x7b' := by simpa [isOpening] using hc
      rw [openOrWait_of_opened hbreak] at h
      have hinner := breakOutside_append isClosing none inner
      simp only [Option.some.injEq, Inner.mk.injEq, Bool.not_eq_false', List.isEmpty_iff] at h
      rw [h.1, h.2, List.nil_append] at hinner
      exact ⟨header, by rw [← hinner]⟩

/-- If the longer of two lines opens a block at its end, the shorter with a brace below it opens the same. -/
def Step.OpensBelow (short long : Step) : Prop :=
  long.2 = some ⟨[], false⟩ → (short.whole.read ['\x7b']).silent = long.1.silent

/-- A block whose header waits for the brace is the one that opens on the header's line. -/
theorem openOrWait_below (hsame : d.silent = e.silent) (hheader : d.header = none) (hy : BraceEnd y) :
    (d.openOrWait block w).OpensBelow (e.openOrWait block (w ++ y)) := by
  intro h
  obtain ⟨header, hopened⟩ := opened_of_openOrWait h
  rw [openOrWait_of_unopened (breakOutside_none (unmarked_of_break hy hopened)), openOrWait_of_opened hopened]
  show (({ d with header := some block } : Draft).read ['\x7b']).silent = (e.enter block).silent
  rw [read_brace hheader]
  exact congrArg (fun d : Draft => d.enter block) hsame

/-- A brace of its own at top level opens a block that is skipped. -/
theorem read_lone_brace (hblocks : d.blocks = []) (hheader : d.header = none) :
    (d.read ['\x7b']).silent = (d.enter skippedBlock).silent := by
  have hline : d.lineIn ['\x7b'] = ((d.notice (.skippingBlock "")).enter skippedBlock, some ⟨[], false⟩) := by
    rw [lineIn, hblocks]
    rfl
  rw [read_of_some ((step_of_trim rfl hheader).trans hline), if_neg Bool.false_ne_true, read_blank rfl]
  rfl

theorem refDirective_below (hheader : d.header = none) (hy : BraceEnd y) :
    (d.refDirective w).OpensBelow (d.refDirective (w ++ y)) := by
  intro h
  -- The first mark is not a colon, since a relation opens nothing.
  obtain ⟨hblock, hfirst⟩ : d.refDirective (w ++ y) = d.openOrWait .references (w ++ y) ∧
      ∀ c ∈ (breakOutside endsHeader none (w ++ y)).2.head?, c = '\x7b' := by
    unfold refDirective at h ⊢
    cases hbreak : breakOutside endsHeader none (w ++ y) with
    | mk header rest =>
      rw [← endsHeader_eq, hbreak] at h ⊢
      cases rest with
      | nil => exact ⟨rfl, by simp⟩
      | cons c rest =>
        obtain ⟨-, -, -, hc⟩ := of_breakOutside hbreak
        dsimp only at h ⊢
        split at h
        · cases h
        · rename_i hcolon
          exact ⟨if_neg hcolon, by simpa [endsHeader, hcolon] using hc⟩
  rw [hblock] at h ⊢
  obtain ⟨header, hopened⟩ := opened_of_openOrWait h
  have hnone := unmarked_of_opened isOpening_of_endsHeader hy hopened hfirst
  have hwaits : d.refDirective w = d.openOrWait .references w := by
    rw [refDirective, ← endsHeader_eq, breakOutside_none hnone]
  rw [hwaits]
  exact openOrWait_below rfl hheader hy h

theorem tableHeader_below (hheader : d.header = none) (hy : BraceEnd y) (hlen : 5 ≤ w.length)
    (hlast : ∀ c ∈ w.getLast?, isBlank c = false) : (d.tableHeader w).OpensBelow (d.tableHeader (w ++ y)) := by
  unfold tableHeader
  rw [hy.tableHeader? hlen hlast]
  cases tableHeader? w with
  | none => exact openOrWait_below rfl hheader hy
  | some name => exact openOrWait_below rfl hheader hy

theorem enumHeader_below (hheader : d.header = none) (hy : BraceEnd y) (hlen : 4 ≤ w.length)
    (hlast : ∀ c ∈ w.getLast?, isBlank c = false) : (d.enumHeader w).OpensBelow (d.enumHeader (w ++ y)) := by
  unfold enumHeader
  rw [hy.enumHeader? hlen hlast]
  cases enumHeader? w with
  | none => exact openOrWait_below rfl hheader hy
  | some name => exact openOrWait_below rfl hheader hy

theorem topLevelLine_of_table {line : List Char} (h : leadingKeyword line = "table".toList) :
    d.topLevelLine line = d.tableHeader line := by rw [topLevelLine, h, if_pos rfl]

theorem topLevelLine_of_ref {line : List Char} (h : leadingKeyword line = "ref".toList) :
    d.topLevelLine line = d.refDirective (line.drop 3) := by
  rw [topLevelLine, h, if_neg (by decide), if_pos rfl]

theorem topLevelLine_of_enum {line : List Char} (h : leadingKeyword line = "enum".toList) :
    d.topLevelLine line = d.enumHeader line := by
  rw [topLevelLine, h, if_neg (by decide), if_neg (by decide), if_pos rfl]

/-- A line of an unknown block at top level can have the brace at its end below it. -/
theorem unknown_below (hblocks : d.blocks = []) (hheader : d.header = none) (hy : BraceEnd y)
    (hunknown : leadingKeyword w ∉ blockKeywords) (hclosing : w.head? ≠ some '\x7d') (hne : w ≠ []) :
    (d.topLevelLine w).OpensBelow (d.topLevelLine (w ++ y)) := by
  intro h
  have hhead : (w ++ y).head? = w.head? := List.head?_append_of_ne_nil _ hne
  have hlong := topLevelLine_unknown (hy.leadingKeyword w ▸ hunknown) (hhead ▸ hclosing) d
  have hshort := topLevelLine_unknown hunknown hclosing d
  cases hblock : isBlockHeader (w ++ y) with
  | false =>
    rw [hblock, if_neg Bool.false_ne_true] at hlong
    rw [show (d.topLevelLine (w ++ y)).2 = none from congrArg Prod.snd hlong] at h
    cases h
  | true =>
    rw [hblock, if_pos rfl] at hlong
    have hopens : (d.openOrWait skippedBlock (w ++ y)).2 = some ⟨[], false⟩ :=
      (congrArg Prod.snd hlong).symm.trans h
    have hdraft : (d.topLevelLine (w ++ y)).1.silent = (d.openOrWait skippedBlock (w ++ y)).1.silent :=
      congrArg Prod.fst hlong
    rw [hdraft]
    -- A header that is too long to wait is ignored, and the brace opens a block of its own.
    cases hwaits : isBlockHeader w with
    | true =>
      rw [hwaits, if_pos rfl] at hshort
      rw [read_eq_of_silent (whole_eq_of_silent hshort)]
      exact openOrWait_below rfl hheader hy hopens
    | false =>
      rw [hwaits, if_neg Bool.false_ne_true] at hshort
      have hignored : (d.topLevelLine w).whole.silent = d.silent :=
        whole_eq_of_silent (show _ = Step.silent (d, none) from hshort)
      obtain ⟨header, hopened⟩ := opened_of_openOrWait hopens
      rw [read_eq_of_silent hignored, read_lone_brace hblocks hheader, openOrWait_of_opened hopened]

/-- A line at top level can have the brace at its end below it. -/
theorem topLevelLine_below (hblocks : d.blocks = []) (hheader : d.header = none) (hy : BraceEnd y) (hne : w ≠ [])
    (hlast : ∀ c ∈ w.getLast?, isBlank c = false) : (d.topLevelLine w).OpensBelow (d.topLevelLine (w ++ y)) := by
  have hlen := length_leadingKeyword_le w
  have hkeyword := hy.leadingKeyword w
  by_cases htable : leadingKeyword w = "table".toList
  · rw [htable] at hlen hkeyword
    rw [topLevelLine_of_table hkeyword, topLevelLine_of_table htable]
    exact tableHeader_below hheader hy hlen hlast
  by_cases href : leadingKeyword w = "ref".toList
  · rw [href] at hlen hkeyword
    have hthree : 3 ≤ w.length := hlen
    rw [topLevelLine_of_ref hkeyword, topLevelLine_of_ref href, List.drop_append_of_le_length hthree]
    exact refDirective_below hheader hy
  by_cases henum : leadingKeyword w = "enum".toList
  · rw [henum] at hlen hkeyword
    rw [topLevelLine_of_enum hkeyword, topLevelLine_of_enum henum]
    exact enumHeader_below hheader hy hlen hlast
  have hunknown : leadingKeyword w ∉ blockKeywords := by
    simp only [blockKeywords, List.mem_cons, List.not_mem_nil, or_false, not_or]
    exact ⟨htable, href, henum⟩
  by_cases hclosing : w.head? = some '\x7d'
  · -- A closing brace opens nothing.
    have hhead : (w ++ y).head? = some '\x7d' := (List.head?_append_of_ne_nil _ hne).trans hclosing
    intro h
    rw [topLevelLine, hkeyword, if_neg htable, if_neg href, if_neg henum, if_pos hhead] at h
    cases h
  · exact unknown_below hblocks hheader hy hunknown hclosing hne

/-! ## Lines of a table -/

variable {t : Table} {spelled : String} {outer : List Block}

/-- A word alone is no column. -/
theorem columnLine_of_word (h : ∀ c ∈ outside none w, isBlank c = false) :
    (d.columnLine t spelled outer w).silent = d.silent := by
  have htype : (columnText w).dataType = [] := by
    rw [columnText, breakOutside_none h]
    rfl
  unfold columnLine
  dsimp only
  rw [htype]
  split <;> rfl

theorem read_brace_in_table (hblocks : d.blocks = .table t spelled :: outer) (hheader : d.header = none) :
    (d.read ['\x7b']).silent = d.silent := by
  have hline : d.lineIn ['\x7b'] = (d.columnLine t spelled outer ['\x7b'], none) := by
    rw [lineIn, hblocks]
    rfl
  rw [read_of_none ((step_of_trim rfl hheader).trans hline)]
  exact columnLine_of_word (List.all_iff_forall_prop.1 (by decide))

end Draft

theorem opensBlock_of_append {keyword : List Char} (hlen : keyword.length ≤ w.length)
    (hlast : ∀ c ∈ w.getLast?, isBlank c = false) (h : opensBlock keyword (w ++ y) = true) :
    opensBlock keyword w = true := by
  have hdrop := last_of_suffix hlast (List.drop_suffix keyword.length w)
  unfold opensBlock afterKeyword at h ⊢
  rw [List.drop_append_of_le_length hlen] at h
  by_cases hne : w.drop keyword.length = []
  · rw [hne]
    rfl
  · obtain ⟨htrim, -⟩ := trimLeft_append_of_last hne hdrop y
    rw [htrim] at h
    cases hs : trimLeft (w.drop keyword.length) with
    | nil => rfl
    | cons c r =>
      rw [hs] at h
      exact h

/-- A line is its first word, which has neither blanks nor quotes, and what follows it. -/
theorem leadingKeyword_spec (w : List Char) : ∃ word, w = word ++ w.drop (leadingKeyword w).length ∧
    (∀ c ∈ word, isBlank c = false) ∧ ∀ c ∈ word, isQuote c = false := by
  obtain ⟨word, hword⟩ : ∃ word, word = w.takeWhile fun c => c.isAlphanum || c == '_' := ⟨_, rfl⟩
  have hchars : ∀ c ∈ word, (c.isAlphanum || c == '_') = true :=
    hword ▸ fun c hc => List.all_eq_true.1 List.all_takeWhile c hc
  have hlen : word.length = (leadingKeyword w).length := by rw [hword, leadingKeyword, List.length_map]
  obtain ⟨rest, hrest⟩ : word <+: w := hword ▸ List.takeWhile_prefix _
  have hdrop : (word ++ rest).drop (leadingKeyword w).length = rest := List.drop_left' hlen
  rw [hrest] at hdrop
  refine ⟨word, by rw [hdrop, hrest], fun c hc => ?_, fun c hc => ?_⟩
  · rw [Bool.eq_false_iff]
    intro hblank
    exact absurd (hchars c hc) (by simp [not_alphanum_of_isBlank hblank])
  · rw [Bool.eq_false_iff]
    intro hquote
    simp only [isQuote, Bool.or_eq_true, beq_iff_eq] at hquote
    rcases hquote with (rfl | rfl) | rfl <;> exact absurd (hchars _ hc) (by decide)

namespace Draft

variable {d : Draft} {t : Table} {spelled : String} {outer : List Block}

/-- A line of a table that is no remark can have the brace at its end below it. -/
theorem tableLine_below (hheader : d.header = none) (hy : BraceEnd y) (hne : w ≠ [])
    (hlast : ∀ c ∈ w.getLast?, isBlank c = false) (hnote : leadingKeyword w ≠ "note".toList) :
    (d.tableLine t spelled outer w).OpensBelow (d.tableLine t spelled outer (w ++ y)) := by
  intro h
  have hkeyword := hy.leadingKeyword w
  have hhead : (w ++ y).head? = w.head? := List.head?_append_of_ne_nil _ hne
  have hclosing : w.head? ≠ some '\x7d' := fun hclose => by
    rw [tableLine, hhead, if_pos hclose] at h
    cases h
  by_cases hindexes : leadingKeyword w = "indexes".toList ∧ opensBlock (leadingKeyword w) (w ++ y) = true
  · have hopens := opensBlock_of_append (length_leadingKeyword_le w) hlast hindexes.2
    have hlong : d.tableLine t spelled outer (w ++ y) = d.openOrWait skippedBlock (w ++ y) := by
      rw [tableLine, hkeyword, hhead, if_neg hclosing, if_pos hindexes]
    have hshort : d.tableLine t spelled outer w = d.openOrWait skippedBlock w := by
      rw [tableLine, if_neg hclosing, if_pos ⟨hindexes.1, hopens⟩]
    rw [hlong] at h ⊢
    rw [hshort]
    exact openOrWait_below rfl hheader hy h
  · rw [tableLine, hkeyword, hhead, if_neg hclosing, if_neg hindexes, if_neg fun hline => hnote hline.1] at h
    split at h
    · split at h <;> cases h
    · cases h

/-- The line is a remark's in a table. -/
def IsTableNote (d : Draft) (line : List Char) : Prop :=
  (∃ t spelled outer, d.blocks = .table t spelled :: outer) ∧ leadingKeyword line = "note".toList

/-- The header of a remark in a table is its keyword and nothing else. -/
theorem word_of_note (hy : BraceEnd y) (hlast : ∀ c ∈ w.getLast?, isBlank c = false)
    (hnote : leadingKeyword w = "note".toList) (h : (d.tableLine t spelled outer (w ++ y)).2 = some ⟨[], false⟩) :
    w.drop 4 = [] := by
  have hkeyword := (hy.leadingKeyword w).trans hnote
  have hlen : 4 ≤ w.length := by
    have hword := length_leadingKeyword_le w
    rwa [hnote] at hword
  -- It opens a block as a remark, whose first mark is the brace.
  obtain ⟨hdirective, hblock, hopens⟩ : isDirective "note".toList (w ++ y) = true ∧
      isBlockHeader (w ++ y) = true ∧ (d.openOrWait skippedBlock (w ++ y)).2 = some ⟨[], false⟩ := by
    rw [tableLine, hkeyword] at h
    split at h
    · cases h
    · rw [if_neg fun hindexes => absurd hindexes.1 (by decide)] at h
      split at h
      · rename_i hdirective
        split at h
        · rename_i hblock
          exact ⟨hdirective.2, hblock, h⟩
        · cases h
      · rw [if_neg fun href => absurd href.1 (by decide)] at h
        cases h
  have hfirst : ∀ c ∈ (breakOutside endsHeader none (w ++ y)).2.head?, c = '\x7b' := by
    intro c hc
    rw [isBlockHeader, findOutside, ← endsHeader_eq, Option.mem_def.1 hc] at hblock
    simpa using hblock
  obtain ⟨header, hopened⟩ := opened_of_openOrWait hopens
  have hnone := unmarked_of_opened isOpening_of_endsHeader hy hopened hfirst
  by_contra hrest
  -- What follows the keyword would be a mark that stands before the brace.
  obtain ⟨word, hw, -, hquotes⟩ := leadingKeyword_spec w
  rw [hnote] at hw
  obtain ⟨htrim, hmore⟩ := trimLeft_append_of_last hrest (last_of_suffix hlast (List.drop_suffix 4 w)) y
  obtain ⟨blanks, hgap, hblank⟩ := trimLeft_spec (w.drop 4)
  unfold isDirective afterKeyword at hdirective
  cases hmark : trimLeft (w.drop 4) with
  | nil => exact hmore hmark
  | cons c rest =>
    have hdrop : (w ++ y).drop "note".toList.length = w.drop 4 ++ y := List.drop_append_of_le_length hlen
    rw [hdrop, htrim, hmark] at hdirective
    have hc : endsHeader c = true := hdirective
    have hquote : isQuote c = false := by
      simp only [endsHeader, Bool.or_eq_true, beq_iff_eq] at hc
      rcases hc with rfl | rfl <;> decide
    have hfront : ∀ c ∈ word ++ blanks, isQuote c = false := by
      intro c hc
      exact (List.mem_append.1 hc).elim (hquotes c) fun hc => isQuote_of_isBlank (hblank c hc)
    have hmem : c ∈ outside none w := by
      have hsplit : w = (word ++ blanks) ++ c :: rest := by
        rw [List.append_assoc, ← hmark, ← hgap]
        exact hw
      rw [hsplit, outside_append, (outside_of_bare hfront).2, outside]
      simp [isOutside, hquote]
    rw [hnone c hmem] at hc
    cases hc

/-- Without its brace, the header of a remark in a table counts for nothing. -/
theorem tableLine_of_note (hword : w.drop 4 = []) (hnote : leadingKeyword w = "note".toList) :
    (d.tableLine t spelled outer w).whole.silent = d.silent := by
  have hclosing : w.head? ≠ some '\x7d' := fun hclose => by
    obtain ⟨r, rfl⟩ := List.head?_eq_some_iff.1 hclose
    cases hnote
  obtain ⟨word, hw, hblanks, -⟩ := leadingKeyword_spec w
  have hshort : w.drop (leadingKeyword w).length = [] := by rw [hnote]; exact hword
  rw [hshort, List.append_nil] at hw
  subst hw
  have hdirective : isDirective "note".toList w = false := by
    have hdrop : w.drop "note".toList.length = [] := hword
    rw [isDirective, afterKeyword, hdrop]
    rfl
  have hline : d.tableLine t spelled outer w = (d.columnLine t spelled outer w, none) := by
    rw [tableLine, if_neg hclosing, hnote, if_neg fun hindexes => absurd hindexes.1 (by decide), hdirective,
      if_neg (by simp), if_neg (by simp)]
  rw [hline]
  exact columnLine_of_word fun c hc => hblanks c ((outside_sublist none w).subset hc)

/-! ## Reading -/

/-- A line with its brace at the end is read like the line and the brace below it, if it is not a remark's. -/
theorem lineIn_below (hheader : d.header = none) (hy : BraceEnd y) (hne : w ≠ [])
    (hlast : ∀ c ∈ w.getLast?, isBlank c = false) (hnote : ¬ d.IsTableNote w) :
    (d.lineIn w).OpensBelow (d.lineIn (w ++ y)) := by
  cases hblocks : d.blocks with
  | nil =>
    rw [lineIn, lineIn, hblocks]
    exact topLevelLine_below hblocks hheader hy hne hlast
  | cons block outer =>
    cases block with
    | table t spelled =>
      rw [lineIn, lineIn, hblocks]
      exact tableLine_below hheader hy hne hlast fun hkey => hnote ⟨⟨t, spelled, outer, hblocks⟩, hkey⟩
    | skipped depth =>
      intro h
      rw [lineIn, hblocks] at h
      cases h
    | references | enum type =>
      intro h
      rw [lineIn, hblocks] at h
      dsimp only at h
      split at h <;> cases h

/-- The two lines of a remark's header in a table and its brace count for nothing. -/
theorem lineIn_of_note (hheader : d.header = none) (hy : BraceEnd y) (hlast : ∀ c ∈ w.getLast?, isBlank c = false)
    (hnote : d.IsTableNote w) (h : (d.lineIn (w ++ y)).2 = some ⟨[], false⟩) :
    (d.lineIn w).whole.silent = d.silent ∧ ((d.lineIn w).whole.read ['\x7b']).silent = d.silent := by
  obtain ⟨⟨t, spelled, outer, hblocks⟩, hkey⟩ := hnote
  have hline : ∀ line, d.lineIn line = d.tableLine t spelled outer line := fun line => by rw [lineIn, hblocks]
  rw [hline] at h ⊢
  have hnothing : (d.tableLine t spelled outer w).whole.silent = d.silent :=
    tableLine_of_note (word_of_note hy hlast hkey h) hkey
  exact ⟨hnothing, (read_eq_of_silent hnothing _).trans (read_brace_in_table hblocks hheader)⟩

/-- The two ways to read a line of code with a brace at its end: in the innermost block, from which a header
that waited is gone, or as that brace alone. -/
theorem step_append_brace {code : List Char} (h : (d.step (code ++ ['\x7b'])).2 = some ⟨[], false⟩) :
    trim code = [] ∧ trim (code ++ ['\x7b']) = ['\x7b'] ∨
      trim code ≠ [] ∧ ∃ y, BraceEnd y ∧
        (d.step code).silent = (({ d with header := none } : Draft).lineIn (trim code)).silent ∧
        (d.step (code ++ ['\x7b'])).silent =
          (({ d with header := none } : Draft).lineIn (trim code ++ y)).silent := by
  obtain ⟨blanks, hgap, hblank⟩ := trimRight_spec (trimLeft code)
  have htrim : trim (code ++ ['\x7b']) = trim code ++ (blanks ++ ['\x7b']) := by
    rw [trim_around (by decide), hgap, List.append_assoc]
    rfl
  cases hcode : trim code with
  | nil =>
    left
    rw [← trim, hcode, List.nil_append] at hgap
    cases blanks with
    | nil => exact ⟨rfl, by rw [htrim, hcode]; rfl⟩
    | cons b blanks =>
      have hhead := List.head?_dropWhile_not isBlank code
      rw [← trimLeft, hgap] at hhead
      simp [hblank b List.mem_cons_self] at hhead
  | cons c r =>
    right
    rw [hcode, List.cons_append] at htrim
    have hbrace : d.header = none ∨ c ≠ '\x7b' := by
      by_contra hboth
      obtain ⟨hwaits, rfl⟩ : d.header ≠ none ∧ c = '\x7b' := by simpa using hboth
      obtain ⟨header, hheader⟩ := Option.ne_none_iff_exists'.1 hwaits
      rw [step, htrim] at h
      simp [hheader] at h
    exact ⟨by simp, _, ⟨blanks, hblank, rfl⟩, step_silent hcode hbrace, step_silent htrim hbrace⟩

theorem whole_of_opened {s : Step} (h : s.2 = some ⟨[], false⟩) : s.whole = s.1 := by
  unfold Step.whole
  rw [h]
  exact read_blank rfl

theorem isBlank_of_trim_last (s : List Char) : ∀ c ∈ (trim s).getLast?, isBlank c = false :=
  (ends_of_trim (trim_trim s)).2

/-- A line of code with its brace at the end is read like the line and the brace below it, if it is not a
remark's header in a table. -/
theorem read_below {code : List Char} (hnote : ¬ d.IsTableNote (trim code))
    (h : (d.step (code ++ ['\x7b'])).2 = some ⟨[], false⟩) :
    ((d.read code).read ['\x7b']).silent = (d.read (code ++ ['\x7b'])).silent := by
  rcases step_append_brace h with ⟨hblank, hbrace⟩ | ⟨hne, y, hy, hshort, hlong⟩
  · rw [read_blank hblank, ← read_trim d (code ++ ['\x7b']), hbrace]
  · have hopens : (({ d with header := none } : Draft).lineIn (trim code ++ y)).2 = some ⟨[], false⟩ :=
      (congrArg Prod.snd hlong).symm.trans h
    have hnote : ¬ ({ d with header := none } : Draft).IsTableNote (trim code) := hnote
    rw [read_eq_whole d code, read_eq_of_silent (whole_eq_of_silent hshort),
      lineIn_below rfl hy hne (isBlank_of_trim_last code) hnote hopens, read_eq_whole,
      whole_eq_of_silent hlong, whole_of_opened hopens]

/-- In a table, a remark's header and its brace below it are read like the header alone. -/
theorem read_note_below {code : List Char} (hnote : d.IsTableNote (trim code))
    (h : (d.step (code ++ ['\x7b'])).2 = some ⟨[], false⟩) :
    ((d.read code).read ['\x7b']).silent = (d.read code).silent := by
  rcases step_append_brace h with ⟨hblank, -⟩ | ⟨-, y, hy, hshort, hlong⟩
  · rw [hblank] at hnote
    cases hnote.2
  · have hopens : (({ d with header := none } : Draft).lineIn (trim code ++ y)).2 = some ⟨[], false⟩ :=
      (congrArg Prod.snd hlong).symm.trans h
    have hnote : ({ d with header := none } : Draft).IsTableNote (trim code) := hnote
    obtain ⟨hheader, hbrace⟩ := lineIn_of_note rfl hy (isBlank_of_trim_last code) hnote hopens
    rw [read_eq_whole d code, read_eq_of_silent (whole_eq_of_silent hshort), hbrace,
      whole_eq_of_silent hshort, hheader]

end Draft

/-! ## Texts -/

/-- A line behind the first lines of a text is a block's header if a brace is put at its end: the brace is
code, it opens the block, and nothing of the line is behind it. -/
structure OpensAtEnd (before : List (List Char)) (header : List Char) : Prop where
  code : modeAtEnd (carryAfter before).mode header = some .code
  opens : ((draftAfter before).step ((codeFrom (carryAfter before).mode header).1 ++ ['\x7b'])).2 =
    some ⟨[], false⟩

/-- The line heads a remark in a table. -/
def HeadsTableNote (before : List (List Char)) (header : List Char) : Prop :=
  (draftAfter before).IsTableNote (trim (codeFrom (carryAfter before).mode header).1)

/-- A brace where code ends is code. -/
theorem codeFrom_append_brace {mode : Mode} {header : List Char} (h : modeAtEnd mode header = some .code) :
    codeFrom mode (header ++ ['\x7b']) = ((codeFrom mode header).1 ++ ['\x7b'], .code) ∧
      (codeFrom mode header).2 = .code := by
  have hmark : ∀ c ∈ ['\x7b'].head?, c ∉ codeMarks := by
    rintro c ⟨⟩
    decide
  have happ := codeFrom_append mode header hmark (.inr (by simp [h]))
  rw [h] at happ
  exact ⟨happ, by rw [carry_codeFrom, h]; rfl⟩

/-- **The brace of a block can stand on the line below its header**: a text is the same schema, or none
alike, when the brace at the end of a header is moved to a line of its own. The exception is the header of
a remark in a table, whose brace below it counts for nothing: the text is read as it is without that brace,
so that what stands in the block is read as columns. -/
theorem brace_below {text below : String} {before after : List (List Char)} {header : List Char}
    (htext : lines text.toList = before ++ (header ++ ['\x7b']) :: after)
    (hbelow : lines below.toList = before ++ header :: ['\x7b'] :: after) (hopens : OpensAtEnd before header) :
    (¬ HeadsTableNote before header → (parse below).1 = (parse text).1) ∧
      (HeadsTableNote before header → ∀ bare : String, lines bare.toList = before ++ header :: after →
        (parse below).1 = (parse bare).1) := by
  obtain ⟨hlong, hshort⟩ := codeFrom_append_brace hopens.code
  have hbrace : codeFrom Carry.code.mode ['\x7b'] = (['\x7b'], .code) := by decide
  rw [parse_of_lines hbelow, Draft.schemaAfter_cons, Draft.schemaAfter_cons, hshort, hbrace]
  constructor
  · intro hnote
    rw [parse_of_lines htext, Draft.schemaAfter_cons, hlong]
    exact Draft.schemaAfter_congr (Draft.read_below hnote hopens.opens) .code after
  · intro hnote bare hbare
    rw [parse_of_lines hbare, Draft.schemaAfter_cons, hshort]
    exact Draft.schemaAfter_congr (Draft.read_note_below hnote hopens.opens) .code after

/-- The indexes of a table are skipped when their brace is below. -/
theorem indexes_open_below :
    (parse "Table t \x7b\nid int\nindexes \n\x7b\nid\n\x7d\nname text\n\x7d\n").1 =
      some ⟨⟨[⟨"t", [⟨"id", "int", ⟨[]⟩⟩, ⟨"name", "text", ⟨[]⟩⟩]⟩], []⟩, []⟩ := by
  have htext : lines "Table t \x7b\nid int\nindexes \x7b\nid\n\x7d\nname text\n\x7d\n".toList =
      ["Table t \x7b".toList, "id int".toList] ++ ("indexes ".toList ++ ['\x7b']) ::
        ["id".toList, "\x7d".toList, "name text".toList, "\x7d".toList] := by decide +kernel
  have hbelow : lines "Table t \x7b\nid int\nindexes \n\x7b\nid\n\x7d\nname text\n\x7d\n".toList =
      ["Table t \x7b".toList, "id int".toList] ++ "indexes ".toList :: ['\x7b'] ::
        ["id".toList, "\x7d".toList, "name text".toList, "\x7d".toList] := by decide +kernel
  have hopens : OpensAtEnd ["Table t \x7b".toList, "id int".toList] "indexes ".toList :=
    ⟨by decide +kernel, by decide +kernel⟩
  have hindexes : ¬ HeadsTableNote ["Table t \x7b".toList, "id int".toList] "indexes ".toList :=
    fun hnote => absurd hnote.2 (by decide +kernel)
  rw [(brace_below htext hbelow hopens).1 hindexes]
  decide +kernel

/-- A remark in a table whose brace is below is read as columns, and ends the table. -/
theorem note_is_columns_below :
    (parse "Table t \x7b\nid int\nNote \x7b\nsome text\n\x7d\nname text\n\x7d\n").1 =
        some ⟨⟨[⟨"t", [⟨"id", "int", ⟨[]⟩⟩, ⟨"name", "text", ⟨[]⟩⟩]⟩], []⟩, []⟩ ∧
      (parse "Table t \x7b\nid int\nNote \n\x7b\nsome text\n\x7d\nname text\n\x7d\n").1 =
        some ⟨⟨[⟨"t", [⟨"id", "int", ⟨[]⟩⟩, ⟨"some", "text", ⟨[]⟩⟩]⟩], []⟩, []⟩ := by
  decide +kernel

end SeedData.Dbml
