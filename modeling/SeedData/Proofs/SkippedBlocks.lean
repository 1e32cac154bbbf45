/-
Blocks that say nothing about the schema. Inside one, reading a line counts its braces
(`step_skipping`), so a block whose braces close at its end leaves the draft as it was but
for what there is to say (`read_block`), and a text with the block in it is the same schema
as without (`skipped_block_is_inert`).

The line that opens a block is cut at its first closing brace, and what stands behind is
not counted. That is no loss if as many braces open there as close (`DropsEvenly`);
otherwise the block can swallow what follows it (`oneLineNote`).
-/
import SeedData.Proofs.Quotations
import SeedData.Proofs.Silence

namespace SeedData.Dbml

open Text

/-! ## Braces -/

def isOpening (c : Char) : Bool := c == '\x7b'

def isClosing (c : Char) : Bool := c == '\x7d'

/-- Whether the last brace of a text closes those that are open before it, so many, and no
earlier one does. Behind it there are only blanks on its line. -/
def closesAtEnd : Nat → List Char → Bool
  | 0, s => s.all fun c => isBlank c && c != '\n'
  | _ + 1, [] => false
  | depth + 1, c :: r =>
    closesAtEnd (if isOpening c then depth + 2 else if isClosing c then depth else depth + 1) r

theorem isOpening_of_isBlank (c : Char) (h : isBlank c = true) : isOpening c = false := by
  rw [Bool.eq_false_iff]
  intro hc
  rw [isOpening, beq_iff_eq] at hc
  exact absurd (hc ▸ h) (by decide)

theorem isClosing_of_isBlank (c : Char) (h : isBlank c = true) : isClosing c = false := by
  rw [Bool.eq_false_iff]
  intro hc
  rw [isClosing, beq_iff_eq] at hc
  exact absurd (hc ▸ h) (by decide)

theorem not_isClosing_of_isOpening {c : Char} (h : isOpening c) : ¬ isClosing c := by
  rw [isOpening, beq_iff_eq] at h
  subst h
  decide

/-- The braces of a first part leave a depth that those of the rest close. -/
theorem closesAtEnd_append {depth : Nat} {x y : List Char} (h : closesAtEnd depth (x ++ y)) :
    ∃ depth', depth' + x.countP isClosing = depth + x.countP isOpening ∧ closesAtEnd depth' y := by
  induction x generalizing depth with
  | nil => exact ⟨depth, rfl, h⟩
  | cons c x ih =>
    cases depth with
    | zero =>
      simp only [closesAtEnd, List.cons_append, List.all_cons, Bool.and_eq_true] at h
      obtain ⟨⟨hblank, -⟩, h⟩ := h
      rw [List.countP_cons_of_neg (p := isOpening) (by simp [isOpening_of_isBlank c hblank]),
        List.countP_cons_of_neg (p := isClosing) (by simp [isClosing_of_isBlank c hblank])]
      exact ih (by rwa [closesAtEnd])
    | succ depth =>
      rw [List.cons_append, closesAtEnd] at h
      obtain ⟨depth', hdepth, hy⟩ := ih h
      refine ⟨depth', ?_, hy⟩
      by_cases hopen : isOpening c
      · rw [if_pos hopen] at hdepth
        rw [List.countP_cons_of_pos hopen, List.countP_cons_of_neg (not_isClosing_of_isOpening hopen)]
        omega
      · rw [if_neg hopen] at hdepth
        rw [List.countP_cons_of_neg hopen]
        by_cases hclose : isClosing c
        · rw [if_pos hclose] at hdepth
          rw [List.countP_cons_of_pos hclose]
          omega
        · rw [if_neg hclose] at hdepth
          rw [List.countP_cons_of_neg hclose]
          exact hdepth

/-- The characters of lines outside quotations, each line behind a line feed. -/
def outsideLines (lines : List (List Char)) : List Char :=
  lines.flatMap fun line => '\n' :: outside none line

/-- What stands behind the first closing brace opens as many braces as it closes. -/
def DropsEvenly (inner : List Char) : Prop :=
  ∀ dropped ∈ afterOutside? isClosing inner,
    countOutside isOpening none dropped = countOutside isClosing none dropped

instance : DecidablePred DropsEvenly := fun inner =>
  inferInstanceAs (Decidable (∀ dropped ∈ afterOutside? isClosing inner, _))

/-! ## Blocks that are skipped -/

/-- The words that the lines of other blocks begin with. -/
def blockKeywords : List (List Char) := ["table".toList, "ref".toList, "enum".toList]

/-- The marks that end the header of a block or do not belong in it. -/
def isHeaderMark (c : Char) : Bool := c == ':' || isOpening c || isClosing c

/-- A block that is skipped, by its lines: those of its header, the line with its opening
brace, cut at the brace, and those that follow. -/
structure IsSkipped (header : List (List Char)) (before inner : List Char) (body : List (List Char)) :
    Prop where
  unknown : ∀ line ∈ header ++ [before ++ '\x7b' :: inner], leadingKeyword (trim line) ∉ blockKeywords
  unmarked : ∀ line ∈ header ++ [before], (breakOutside isHeaderMark none line).2 = []
  opens : before.foldl quoteAfter none = none
  closes : closesAtEnd 1 (outside none inner ++ outsideLines body)

/-- Whether a header waits for its brace after a line, given whether one did before. -/
def waitsAfter (waits : Bool) (line : List Char) : Bool :=
  match trim line with
  | [] => waits
  | c :: r => isBlockHeader (c :: r)

/-- Whether a header in the lines waits for its brace after them. -/
def headerWaits (lines : List (List Char)) : Bool := lines.foldl waitsAfter false

namespace Draft

/-- The draft inside a block that is skipped, at this depth, or outside of it. -/
def skipping (d : Draft) : Nat → Draft
  | 0 => d
  | depth + 1 => d.enter (.skipped (depth + 1))

/-- The draft with a block that is to be skipped, or none, as the header that waits. -/
def awaiting (d : Draft) (waits : Bool) : Draft :=
  { d with header := if waits then some skippedBlock else none }

variable {d : Draft} {line inner before : List Char}

theorem awaiting_false (hheader : d.header = none) : d.awaiting false = d := by
  rw [awaiting, if_neg Bool.false_ne_true, ← hheader]

/-! ## Inside the block -/

/-- A line inside a block that is skipped counts for its braces only. -/
theorem step_skipping (hd : d.header = none) {depth depth' : Nat}
    (h : depth' + (outside none line).countP isClosing = depth + 1 + (outside none line).countP isOpening) :
    (d.skipping (depth + 1)).step line = (d.skipping depth', none) := by
  rw [← countP_outside_trim isOpening_of_isBlank, ← countP_outside_trim isClosing_of_isBlank] at h
  rw [step]
  cases htrim : trim line with
  | nil =>
    obtain rfl : depth' = depth + 1 := by simpa [htrim, outside] using h
    rfl
  | cons c r =>
    have hheader : (d.skipping (depth + 1)).header = none := hd
    -- The subtraction does not cut off: the line closes no more than is open by then.
    have hdepth : depth + 1 + countOutside isOpening none (c :: r) - countOutside isClosing none (c :: r) =
        depth' := by
      rw [countOutside_eq, countOutside_eq, ← htrim]
      omega
    dsimp only
    rw [hheader]
    show ((d.skipping (depth + 1)).skippedLine (depth + 1) d.blocks (c :: r), none) = _
    rw [skippedLine]
    split
    · rename_i hzero
      obtain rfl : depth' = 0 := hdepth.symm.trans hzero
      rfl
    · rename_i hne
      cases depth' with
      | zero => exact absurd hdepth hne
      | succ depth' => exact congrArg (fun depth => (d.enter (.skipped depth), none)) hdepth

theorem read_skipping (hd : d.header = none) {depth depth' : Nat}
    (h : depth' + (outside none line).countP isClosing = depth + 1 + (outside none line).countP isOpening) :
    (d.skipping (depth + 1)).read line = d.skipping depth' := read_of_none (step_skipping hd h)

/-- Lines whose braces close at their end lead out of the block. -/
theorem read_body (hd : d.header = none) {depth : Nat} {body : List (List Char)}
    (h : closesAtEnd depth (outsideLines body)) : body.foldl read (d.skipping depth) = d := by
  induction body generalizing depth with
  | nil =>
    cases depth with
    | zero => rfl
    | succ depth => cases h
  | cons line body ih =>
    cases depth with
    | zero => simp [outsideLines, closesAtEnd] at h
    | succ depth =>
      have hline : closesAtEnd (depth + 1) (outside none line ++ outsideLines body) := h
      obtain ⟨depth', hdepth, hbody⟩ := closesAtEnd_append hline
      rw [List.foldl_cons, read_skipping hd hdepth, ih hbody]

/-! ## The header -/

/-- A line of an unknown block at top level is its header or a remark. -/
theorem topLevelLine_unknown (hunknown : leadingKeyword line ∉ blockKeywords)
    (hbrace : line.head? ≠ some '\x7d') (d : Draft) :
    (d.topLevelLine line).silent =
      if isBlockHeader line then (d.openOrWait skippedBlock line).silent else (d.silent, none) := by
  simp only [blockKeywords, List.mem_cons, List.not_mem_nil, or_false, not_or] at hunknown
  obtain ⟨htable, href, henum⟩ := hunknown
  rw [topLevelLine, if_neg htable, if_neg href, if_neg henum, if_neg hbrace]
  split
  · exact openOrWait_eq_of_silent _ _ (notice_silent d _)
  · split <;> rfl

/-- A header that waits gives way to a line that does not open it. -/
theorem step_awaiting (hblocks : d.blocks = []) {waits : Bool} {c : Char} {r : List Char}
    (htrim : trim line = c :: r) (hopen : waits = true → c ≠ '\x7b') :
    ((d.awaiting waits).step line).silent = ((d.awaiting false).topLevelLine (c :: r)).silent := by
  have hline : ∀ e : Draft, e.blocks = [] → e.silent = (d.awaiting false).silent →
      (e.lineIn (c :: r)).silent = ((d.awaiting false).topLevelLine (c :: r)).silent := by
    intro e he hsilent
    rw [lineIn, he]
    exact topLevelLine_eq_of_silent (c :: r) hsilent
  rw [step, htrim]
  cases waits with
  | false => exact hline _ hblocks rfl
  | true =>
    show Step.silent (if c = '\x7b' then _ else _) = _
    rw [if_neg (hopen rfl)]
    exact hline _ hblocks rfl

theorem marks_of_trim {p : Char → Bool} (hp : ∀ c, isBlank c = true → p c = false)
    (h : ∀ c ∈ outside none line, p c = false) : ∀ c ∈ outside none (trim line), p c = false := by
  have hzero : (outside none (trim line)).countP p = 0 := by
    rw [countP_outside_trim hp, List.countP_eq_zero]
    intro c hc
    simp [h c hc]
  intro c hc
  simpa using List.countP_eq_zero.1 hzero c hc

theorem isHeaderMark_of_isBlank (c : Char) (h : isBlank c = true) : isHeaderMark c = false := by
  have hcolon : (c == ':') = false := by
    rw [Bool.eq_false_iff]
    intro hc
    rw [beq_iff_eq] at hc
    exact absurd (hc ▸ h) (by decide)
  rw [isHeaderMark, hcolon, isOpening_of_isBlank c h, isClosing_of_isBlank c h]
  rfl

theorem of_isHeaderMark {c : Char} (h : isHeaderMark c = false) :
    (c == ':') = false ∧ isOpening c = false ∧ isClosing c = false := by
  simpa [isHeaderMark, and_assoc] using h

/-- A line starts with no mark if none stands outside quotations. -/
theorem head?_unmarked (h : ∀ c ∈ outside none line, isHeaderMark c = false) :
    ∀ c ∈ line.head?, isHeaderMark c = false := by
  cases line with
  | nil => simp
  | cons c r =>
    rintro _ ⟨⟩
    by_cases hquote : isQuote c
    · simp only [isQuote, Bool.or_eq_true, beq_iff_eq] at hquote
      rcases hquote with (rfl | rfl) | rfl <;> decide
    · exact h c (by simp [outside, isOutside, hquote])

theorem openOrWait_of_unopened {rest : List Char} (h : breakOutside isOpening none line = (rest, []))
    (d : Draft) (block : Block) : d.openOrWait block line = ({ d with header := some block }, none) := by
  have hafter : afterOutside? (· == '\x7b') line = none := by
    show (match (breakOutside isOpening none line).2 with | [] => none | _ :: r => some r) = none
    rw [h]
  rw [openOrWait, hafter]

theorem openOrWait_of_opened (h : breakOutside isOpening none line = (before, '\x7b' :: inner)) (d : Draft)
    (block : Block) : d.openOrWait block line =
      (d.enter block, some ⟨(breakOutside isClosing none inner).1,
        !(breakOutside isClosing none inner).2.isEmpty⟩) := by
  have hafter : afterOutside? (· == '\x7b') line = some inner := by
    show (match (breakOutside isOpening none line).2 with | [] => none | _ :: r => some r) = some inner
    rw [h]
  rw [openOrWait, hafter]
  rfl

/-- A line of the header before the brace only tells whether to wait for it. -/
theorem read_header_line (hblocks : d.blocks = []) (waits : Bool)
    (hunknown : leadingKeyword (trim line) ∉ blockKeywords)
    (hmark : ∀ c ∈ outside none line, isHeaderMark c = false) :
    ((d.awaiting waits).read line).silent = (d.awaiting (waitsAfter waits line)).silent := by
  have hmarks := marks_of_trim isHeaderMark_of_isBlank hmark
  have hhead := head?_unmarked hmarks
  have hclosing : (trim line).head? ≠ some '\x7d' := fun hc => absurd (hhead _ hc) (by decide)
  have hopening : breakOutside isOpening none (trim line) = (trim line, []) :=
    breakOutside_none fun c hc => (of_isHeaderMark (hmarks c hc)).2.1
  unfold waitsAfter
  cases htrim : trim line with
  | nil =>
    have hstep : (d.awaiting waits).step line = (d.awaiting waits, none) := by rw [step, htrim]
    rw [read_of_none hstep]
  | cons c r =>
    rw [htrim] at hhead hclosing hopening hunknown
    have hbrace : c ≠ '\x7b' := fun hc => absurd (hhead '\x7b' (congrArg some hc)) (by decide)
    have hstep : ((d.awaiting waits).step line).silent =
        ((d.awaiting false).topLevelLine (c :: r)).silent := step_awaiting hblocks htrim fun _ => hbrace
    rw [topLevelLine_unknown hunknown hclosing, openOrWait_of_unopened hopening] at hstep
    rw [read_eq_whole]
    dsimp only
    cases hblock : isBlockHeader (c :: r) with
    | false =>
      rw [hblock, if_neg Bool.false_ne_true] at hstep
      exact whole_eq_of_silent (show _ = Step.silent (d.awaiting false, none) from hstep)
    | true =>
      rw [hblock, if_pos rfl] at hstep
      exact whole_eq_of_silent hstep

theorem read_header (hblocks : d.blocks = []) {header : List (List Char)}
    (hunknown : ∀ line ∈ header, leadingKeyword (trim line) ∉ blockKeywords)
    (hmark : ∀ line ∈ header, ∀ c ∈ outside none line, isHeaderMark c = false) (waits : Bool) :
    (header.foldl read (d.awaiting waits)).silent =
      (d.awaiting (header.foldl waitsAfter waits)).silent := by
  induction header generalizing waits with
  | nil => rfl
  | cons line header ih =>
    have hline := read_header_line hblocks waits (hunknown line List.mem_cons_self)
      (hmark line List.mem_cons_self)
    rw [List.foldl_cons, foldl_read_eq_of_silent hline]
    exact ih (fun l hl => hunknown l (List.mem_cons_of_mem line hl))
      (fun l hl => hmark l (List.mem_cons_of_mem line hl)) _

/-! ## The opening brace -/

theorem dropsEvenly_trimRight (h : DropsEvenly inner) : DropsEvenly (trimRight inner) := by
  intro dropped hdropped
  obtain ⟨blanks, hinner, hblank⟩ := trimRight_spec inner
  obtain ⟨text, c, hbreak⟩ :
      ∃ text c, breakOutside isClosing none (trimRight inner) = (text, c :: dropped) := by
    unfold afterOutside? at hdropped
    split at hdropped
    · cases hdropped
    · rename_i c r hr
      cases hdropped
      exact ⟨_, c, Prod.ext rfl hr⟩
  have hmore := breakOutside_append_of_found hbreak blanks
  rw [← hinner] at hmore
  have heven := h (dropped ++ blanks) (by rw [Option.mem_def, afterOutside?, hmore])
  simpa only [countOutside_eq, outside_append, List.countP_append, Nat.add_zero,
    countP_outside_of_blank isOpening_of_isBlank _ hblank,
    countP_outside_of_blank isClosing_of_isBlank _ hblank] using heven

/-- Behind the opening brace, what counts is what stands before the first that closes. -/
theorem whole_opened (hheader : d.header = none) (heven : DropsEvenly inner) {depth : Nat}
    (h : depth + (outside none inner).countP isClosing = 1 + (outside none inner).countP isOpening) :
    Step.whole (d.skipping 1, some ⟨(breakOutside isClosing none inner).1,
      !(breakOutside isClosing none inner).2.isEmpty⟩) = d.skipping depth := by
  have hinner := breakOutside_append isClosing none inner
  cases hbreak : breakOutside isClosing none inner with
  | mk text rest =>
  rw [hbreak] at hinner
  cases rest with
  | nil =>
    obtain rfl : text = inner := by simpa using hinner
    exact read_skipping hheader h
  | cons c dropped =>
    obtain ⟨hnone, hfold, hquote, hc⟩ := of_breakOutside hbreak
    have hdropped := heven dropped (by rw [Option.mem_def, afterOutside?, hbreak])
    rw [countOutside_eq, countOutside_eq] at hdropped
    have htext : (outside none text).countP isClosing = 0 :=
      List.countP_eq_zero.2 fun c hc => by simp [hnone c hc]
    have hopen : ¬ isOpening c := fun hopen => not_isClosing_of_isOpening hopen hc
    have hout : outside none (text ++ c :: dropped) = outside none text ++ c :: outside none dropped := by
      rw [outside_append, hfold]
      simp [outside, isOutside, quoteAfter, hquote]
    rw [← hinner, hout, List.countP_append, List.countP_append, List.countP_cons_of_pos hc,
      List.countP_cons_of_neg hopen] at h
    have hread : (d.skipping 1).read text = d.skipping (depth + 1) := read_skipping hheader (by omega)
    have hclose : (d.skipping (depth + 1)).step ['\x7d'] = (d.skipping depth, none) :=
      step_skipping hheader (show depth + 1 = depth + 1 + 0 from rfl)
    show (((d.skipping 1).read text).step ['\x7d']).1 = _
    rw [hread, hclose]

theorem isBlockHeader_of_opened (hmark : ∀ c ∈ outside none before, isHeaderMark c = false)
    (hopens : before.foldl quoteAfter none = none) : isBlockHeader (before ++ '\x7b' :: inner) = true := by
  have hbreak : breakOutside (fun c => c == ':' || c == '\x7b') none (before ++ '\x7b' :: inner) =
      (before, '\x7b' :: inner) := by
    refine breakOutside_at (fun c hc => ?_) hopens (by decide) (by decide) inner
    obtain ⟨hcolon, hopen, -⟩ := of_isHeaderMark (hmark c hc)
    rw [hcolon]
    exact hopen
  rw [isBlockHeader, findOutside, hbreak]
  rfl

/-- A brace that is waited for opens its block, and nothing behind it is dropped. -/
theorem read_awaited_brace (hheader : d.header = none) (hblank : trimLeft before = []) {depth : Nat}
    (h : depth + (outside none inner).countP isClosing = 1 + (outside none inner).countP isOpening) :
    (d.awaiting true).read (before ++ '\x7b' :: inner) = d.skipping depth := by
  rw [← countP_outside_trimRight isOpening_of_isBlank, ← countP_outside_trimRight isClosing_of_isBlank] at h
  have htrim : trim (before ++ '\x7b' :: inner) = '\x7b' :: trimRight inner := by
    rw [trim_around (by decide), hblank, List.nil_append]
  have hstep : (d.awaiting true).step (before ++ '\x7b' :: inner) =
      (d.skipping 1, some ⟨trimRight inner, false⟩) := by
    rw [step, htrim]
    show ((d.awaiting false).enter skippedBlock, some _) = _
    rw [awaiting_false hheader]
    rfl
  rw [read_of_some hstep, if_neg Bool.false_ne_true, read_skipping hheader h]

/-- The line with the opening brace leads into the block. -/
theorem read_opening_line (hblocks : d.blocks = []) (hheader : d.header = none) {waits : Bool}
    (hunknown : leadingKeyword (trim (before ++ '\x7b' :: inner)) ∉ blockKeywords)
    (hmark : ∀ c ∈ outside none before, isHeaderMark c = false)
    (hopens : before.foldl quoteAfter none = none)
    (heven : waits = true ∧ trimLeft before = [] ∨ DropsEvenly inner) {depth : Nat}
    (h : depth + (outside none inner).countP isClosing = 1 + (outside none inner).countP isOpening) :
    ((d.awaiting waits).read (before ++ '\x7b' :: inner)).silent = (d.skipping depth).silent := by
  by_cases hwait : waits = true ∧ trimLeft before = []
  · obtain ⟨rfl, hblank⟩ := hwait
    rw [read_awaited_brace hheader hblank h]
  · have htrim := trim_around (show isBlank '\x7b' = false by decide) before inner
    have heven := dropsEvenly_trimRight (heven.resolve_left hwait)
    rw [← countP_outside_trimRight isOpening_of_isBlank,
      ← countP_outside_trimRight isClosing_of_isBlank] at h
    obtain ⟨hsub, hfold⟩ := outside_trimLeft before
    rw [hopens] at hfold
    have hmark : ∀ c ∈ outside none (trimLeft before), isHeaderMark c = false :=
      fun c hc => hmark c (hsub.subset hc)
    have hbreak : breakOutside isOpening none (trimLeft before ++ '\x7b' :: trimRight inner) =
        (trimLeft before, '\x7b' :: trimRight inner) :=
      breakOutside_at (fun c hc => (of_isHeaderMark (hmark c hc)).2.1) hfold (by decide) (by decide) _
    -- The line starts with what stands before the brace, or with the brace itself.
    obtain ⟨c, r, hline, hclose, hopen⟩ : ∃ c r, trimLeft before ++ '\x7b' :: trimRight inner = c :: r ∧
        c ≠ '\x7d' ∧ (waits = true → c ≠ '\x7b') := by
      have hhead := head?_unmarked hmark
      cases hb : trimLeft before with
      | nil => exact ⟨_, _, rfl, by decide, fun hw => absurd ⟨hw, hb⟩ hwait⟩
      | cons c b =>
        rw [hb] at hhead
        exact ⟨c, _, rfl, fun hc => absurd (hhead _ (congrArg some hc)) (by decide),
          fun _ hc => absurd (hhead _ (congrArg some hc)) (by decide)⟩
    have hclosing : (trimLeft before ++ '\x7b' :: trimRight inner).head? ≠ some '\x7d' := by
      rw [hline]
      exact fun hc => hclose (Option.some.inj hc)
    have hstep : ((d.awaiting waits).step (before ++ '\x7b' :: inner)).silent =
        ((d.awaiting false).topLevelLine (c :: r)).silent := step_awaiting hblocks (htrim.trans hline) hopen
    rw [htrim] at hunknown
    rw [← hline, topLevelLine_unknown hunknown hclosing, isBlockHeader_of_opened hmark hfold, if_pos rfl,
      openOrWait_of_opened hbreak] at hstep
    rw [read_eq_whole, whole_eq_of_silent hstep, awaiting_false hheader]
    exact congrArg silent (whole_opened hheader heven h)

end Draft

/-- A block that is skipped leaves the draft as it was, but for what there is to say. -/
theorem read_block {d : Draft} {header body : List (List Char)} {before inner : List Char}
    (hblocks : d.blocks = []) (hheader : d.header = none) (h : IsSkipped header before inner body)
    (heven : headerWaits header = true ∧ trimLeft before = [] ∨ DropsEvenly inner) :
    ((header ++ (before ++ '\x7b' :: inner) :: body).foldl Draft.read d).silent = d.silent := by
  obtain ⟨depth, hdepth, hbody⟩ := closesAtEnd_append h.closes
  have hintro := Draft.read_header hblocks (fun l hl => h.unknown l (List.mem_append_left _ hl))
    (fun l hl => of_breakOutside_nil (h.unmarked l (List.mem_append_left _ hl))) false
  rw [Draft.awaiting_false hheader] at hintro
  have hopen := Draft.read_opening_line hblocks hheader
    (h.unknown _ (List.mem_append_right _ (List.mem_singleton_self _)))
    (of_breakOutside_nil (h.unmarked _ (List.mem_append_right _ (List.mem_singleton_self _)))) h.opens
    heven hdepth
  have hline : ((header.foldl Draft.read d).read (before ++ '\x7b' :: inner)).silent =
      (d.skipping depth).silent := (Draft.read_eq_of_silent hintro _).trans hopen
  rw [List.foldl_append, List.foldl_cons, Draft.foldl_read_eq_of_silent hline,
    Draft.read_body hheader hbody]

/-! ## Whole texts -/

theorem codeLines_append (carry : Carry) (x y : List (List Char)) :
    codeLines carry (x ++ y) =
      ((codeLines carry x).1 ++ (codeLines (codeLines carry x).2 y).1,
        (codeLines (codeLines carry x).2 y).2) := by
  induction x generalizing carry with
  | nil => rfl
  | cons line x ih =>
    rw [List.cons_append, codeLines]
    dsimp only
    rw [ih]
    rfl

/-- A text after which nothing is open and no header waits for its brace. -/
structure AtTopLevel (text : List Char) : Prop where
  wholeLines : WholeLines text
  carry : (codeLines .code (lines text)).2 = .code
  blocks : ((codeLines .code (lines text)).1.foldl Draft.read .start).blocks = []
  header : ((codeLines .code (lines text)).1.foldl Draft.read .start).header = none

/-- **A block that is skipped is inert**: a text with it is the same schema as without, or
both are none, if what its opening line drops opens as many braces as it closes. A brace
that a header waits for opens its block without dropping anything. -/
theorem skipped_block_is_inert {a block b : String} {header body : List (List Char)}
    {before inner : List Char} (ha : AtTopLevel a.toList) (hwhole : WholeLines block.toList ∨ b = "")
    (hlines : codeLines .code (lines block.toList) = (header ++ (before ++ '\x7b' :: inner) :: body, .code))
    (hblock : IsSkipped header before inner body)
    (heven : headerWaits header = true ∧ trimLeft before = [] ∨ DropsEvenly inner) :
    (parse (a ++ block ++ b)).1 = (parse (a ++ b)).1 := by
  apply parse_eq_of_silent
  have hrest : lines (block.toList ++ b.toList) = lines block.toList ++ lines b.toList := by
    rcases hwhole with hwhole | rfl
    · exact lines_append hwhole _
    · simp [lines, linesFrom]
  rw [String.toList_append, String.toList_append, String.toList_append, List.append_assoc, draft, draft,
    lines_append ha.wholeLines, lines_append ha.wholeLines, hrest]
  dsimp only
  rw [codeLines_append, ha.carry, codeLines_append, hlines, codeLines_append, ha.carry]
  dsimp only
  rw [List.foldl_append, List.foldl_append]
  conv_rhs => rw [List.foldl_append]
  exact Draft.finish_eq_of_silent
    (Draft.foldl_read_eq_of_silent (read_block ha.blocks ha.header hblock heven) _) _

/-! ## Notes between tables -/

/-- A note in braces inside a note, and a comment with another brace. -/
def nestedNote : String := "Note n \x7b // \x7b\nx \x7b y \x7d\n\x7d\n"

/-- A note in braces inside a note, on one line. -/
def oneLineNote : String := "Note n \x7b x \x7b \x7d \x7d\n"

theorem nested_note_is_inert : (parse ("Table t \x7b\n\x7d\n" ++ nestedNote ++ "Table u \x7b\n\x7d\n")).1 =
    some ⟨⟨[⟨"t", []⟩, ⟨"u", []⟩], []⟩, []⟩ := by
  have htop : AtTopLevel "Table t \x7b\n\x7d\n".toList :=
    ⟨.inr (by decide +kernel), by decide +kernel, by decide +kernel, by decide +kernel⟩
  have hlines : codeLines .code (lines nestedNote.toList) =
      ([] ++ ("Note n ".toList ++ '\x7b' :: " ".toList) :: ["x \x7b y \x7d".toList, "\x7d".toList],
        .code) := by
    decide +kernel
  have hnote : IsSkipped [] "Note n ".toList " ".toList ["x \x7b y \x7d".toList, "\x7d".toList] :=
    ⟨by decide +kernel, by decide +kernel, by decide +kernel, by decide +kernel⟩
  rw [skipped_block_is_inert htop (.inl (.inr (by decide +kernel))) hlines hnote (.inr (by decide +kernel))]
  decide +kernel

/-- The braces of a note in a note close at the end of their line, but the note swallows
the table behind it. -/
theorem one_line_note_swallows_table :
    IsSkipped [] "Note n ".toList " x \x7b \x7d \x7d".toList [] ∧
      (parse (oneLineNote ++ "Table t \x7b\n\x7d\n")).1 = none ∧
      (parse "Table t \x7b\n\x7d\n").1 = some ⟨⟨[⟨"t", []⟩], []⟩, []⟩ :=
  ⟨⟨by decide +kernel, by decide +kernel, by decide +kernel, by decide +kernel⟩, by decide +kernel,
    by decide +kernel⟩

end SeedData.Dbml
