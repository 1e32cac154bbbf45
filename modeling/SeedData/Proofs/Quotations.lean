/-
Text outside quotations. `outside` keeps the characters of a text that stand outside its
quotations; the readers of `Text.Quote` see nothing else, so that what they make of a text
in several parts follows from its parts. Blanks at the ends of a text do not open or close
quotations, and lines can be read one text after the other.
-/
import SeedData.Text.Quote

namespace SeedData.Text

variable {p : Char → Bool} {quote : Option Char} {s x y : List Char} {c : Char}

/-- The characters outside quotations, given the one open before the text. -/
def outside : Option Char → List Char → List Char
  | _, [] => []
  | quote, c :: r =>
    if isOutside quote c then c :: outside (quoteAfter quote c) r else outside (quoteAfter quote c) r

theorem outside_append (quote : Option Char) (x y : List Char) :
    outside quote (x ++ y) = outside quote x ++ outside (x.foldl quoteAfter quote) y := by
  induction x generalizing quote with
  | nil => rfl
  | cons c x ih =>
    simp only [List.cons_append, outside, List.foldl_cons, ih]
    split <;> rfl

theorem outside_sublist (quote : Option Char) (s : List Char) : (outside quote s).Sublist s := by
  induction s generalizing quote with
  | nil => exact .slnil
  | cons c s ih =>
    rw [outside]
    split
    · exact (ih _).cons_cons c
    · exact (ih _).cons c

theorem countOutside_eq (p : Char → Bool) (quote : Option Char) (s : List Char) :
    countOutside p quote s = (outside quote s).countP p := by
  induction s generalizing quote with
  | nil => rfl
  | cons c s ih =>
    rw [countOutside, outside, ih]
    cases isOutside quote c with
    | false => simp
    | true => simp [List.countP_cons, Nat.add_comm]

/-! ## Breaking a text -/

/-- Text that has nothing to break at outside quotations is passed over. -/
theorem breakOutside_past (h : ∀ c ∈ outside quote x, p c = false) (y : List Char) :
    breakOutside p quote (x ++ y) =
      (x ++ (breakOutside p (x.foldl quoteAfter quote) y).1,
        (breakOutside p (x.foldl quoteAfter quote) y).2) := by
  induction x generalizing quote with
  | nil => rfl
  | cons c x ih =>
    rw [outside] at h
    rw [List.cons_append, breakOutside]
    by_cases hc : isOutside quote c
    · rw [if_pos hc] at h
      rw [h c List.mem_cons_self, Bool.and_false, if_neg Bool.false_ne_true,
        ih fun d hd => h d (List.mem_cons_of_mem c hd)]
      rfl
    · rw [if_neg hc] at h
      rw [Bool.not_eq_true] at hc
      rw [hc, Bool.false_and, if_neg Bool.false_ne_true, ih h]
      rfl

theorem breakOutside_none (h : ∀ c ∈ outside quote s, p c = false) : breakOutside p quote s = (s, []) := by
  have hpast := breakOutside_past h []
  simpa [breakOutside] using hpast

theorem breakOutside_here (hquote : isQuote c = false) (hc : p c = true) (y : List Char) :
    breakOutside p none (c :: y) = ([], c :: y) := by
  simp [breakOutside, isOutside, hquote, hc]

/-- Where a text breaks, if the part before has nothing to break at and leaves no
quotation open. -/
theorem breakOutside_at (h : ∀ c ∈ outside quote x, p c = false) (hx : x.foldl quoteAfter quote = none)
    (hquote : isQuote c = false) (hc : p c = true) (y : List Char) :
    breakOutside p quote (x ++ c :: y) = (x, c :: y) := by
  rw [breakOutside_past h, hx, breakOutside_here hquote hc, List.append_nil]

/-- The part before the break has nothing to break at, and it leaves no quotation open. -/
theorem of_breakOutside (h : breakOutside p quote s = (x, c :: y)) :
    (∀ d ∈ outside quote x, p d = false) ∧ x.foldl quoteAfter quote = none ∧ isQuote c = false ∧
      p c = true := by
  induction s generalizing quote x with
  | nil => simp [breakOutside] at h
  | cons d s ih =>
    rw [breakOutside] at h
    split at h
    · rename_i hd
      obtain ⟨rfl, rfl, rfl⟩ : [] = x ∧ d = c ∧ s = y := by simpa using h
      rw [Bool.and_eq_true, isOutside, Bool.and_eq_true, Option.isNone_iff_eq_none] at hd
      exact ⟨by simp [outside], hd.1.1, by simpa using hd.1.2, hd.2⟩
    · rename_i hd
      obtain ⟨rfl, hrest⟩ := Prod.mk.inj h
      obtain ⟨hnone, hfold, hc⟩ := ih (Prod.ext rfl hrest)
      refine ⟨fun e he => ?_, hfold, hc⟩
      rw [outside] at he
      split at he
      · rename_i hout
        rcases List.mem_cons.1 he with rfl | he
        · simpa [hout] using hd
        · exact hnone e he
      · exact hnone e he

/-- What follows a text that breaks does not move the break. -/
theorem breakOutside_append_of_found (h : breakOutside p quote s = (x, c :: y)) (t : List Char) :
    breakOutside p quote (s ++ t) = (x, c :: (y ++ t)) := by
  obtain ⟨hnone, hfold, hquote, hc⟩ := of_breakOutside h
  have hs := breakOutside_append p quote s
  rw [h] at hs
  rw [← hs, List.append_assoc, List.cons_append]
  exact breakOutside_at hnone hfold hquote hc (y ++ t)

theorem of_breakOutside_nil (h : (breakOutside p quote s).2 = []) :
    ∀ c ∈ outside quote s, p c = false := by
  induction s generalizing quote with
  | nil => simp [outside]
  | cons c s ih =>
    rw [breakOutside] at h
    split at h
    · cases h
    · rename_i hc
      intro d hd
      rw [outside] at hd
      split at hd
      · rename_i hout
        rcases List.mem_cons.1 hd with rfl | hd
        · simpa [hout] using hc
        · exact ih h d hd
      · exact ih h d hd

/-! ## Splitting a text -/

theorem splitOutside_none (h : ∀ c ∈ outside quote s, p c = false) : splitOutside p quote s = [s] := by
  induction s generalizing quote with
  | nil => rfl
  | cons c s ih =>
    rw [outside] at h
    rw [splitOutside]
    by_cases hc : isOutside quote c
    · rw [if_pos hc] at h
      rw [h c List.mem_cons_self, Bool.and_false, if_neg Bool.false_ne_true,
        ih fun d hd => h d (List.mem_cons_of_mem c hd)]
    · rw [if_neg hc] at h
      rw [Bool.not_eq_true] at hc
      rw [hc, Bool.false_and, if_neg Bool.false_ne_true, ih h]

theorem splitOutside_ne_nil (p : Char → Bool) (quote : Option Char) (s : List Char) :
    splitOutside p quote s ≠ [] := by
  cases s with
  | nil => simp [splitOutside]
  | cons c s =>
    rw [splitOutside]
    split
    · simp
    · split <;> simp

/-- A text is split where no quotation is open. -/
theorem splitOutside_append (hx : x.foldl quoteAfter quote = none) (hquote : isQuote c = false) (hc : p c = true)
    (y : List Char) : splitOutside p quote (x ++ c :: y) = splitOutside p quote x ++ splitOutside p none y := by
  induction x generalizing quote with
  | nil =>
    obtain rfl : quote = none := hx
    simp [splitOutside, isOutside, hquote, hc]
  | cons d x ih =>
    rw [List.cons_append, splitOutside, splitOutside]
    split
    · rename_i hcut
      simp only [isOutside, Bool.and_eq_true, Option.isNone_iff_eq_none, Bool.not_eq_true'] at hcut
      have hafter : quoteAfter quote d = none := by simp [hcut.1.1, quoteAfter, hcut.1.2]
      rw [List.foldl_cons, hafter] at hx
      rw [ih hx, List.cons_append]
    · rw [ih hx]
      cases hpieces : splitOutside p (quoteAfter quote d) x with
      | nil => exact absurd hpieces (splitOutside_ne_nil _ _ x)
      | cons w ws => rfl

/-- Where a text is split first, if the part before has nothing to split at and leaves no
quotation open. -/
theorem splitOutside_at (h : ∀ c ∈ outside quote x, p c = false) (hx : x.foldl quoteAfter quote = none)
    (hquote : isQuote c = false) (hc : p c = true) (y : List Char) :
    splitOutside p quote (x ++ c :: y) = x :: splitOutside p none y := by
  rw [splitOutside_append hx hquote hc, splitOutside_none h, List.singleton_append]

/-! ## Blanks at the ends -/

theorem isQuote_of_isBlank (h : isBlank c = true) : isQuote c = false := by
  rw [Bool.eq_false_iff]
  intro hquote
  simp only [isQuote, Bool.or_eq_true, beq_iff_eq] at hquote
  rcases hquote with (rfl | rfl) | rfl <;> exact absurd h (by decide)

/-- Text without quotes stands outside quotations. -/
theorem outside_of_bare (h : ∀ c ∈ s, isQuote c = false) :
    outside none s = s ∧ s.foldl quoteAfter none = none := by
  induction s with
  | nil => exact ⟨rfl, rfl⟩
  | cons c s ih =>
    have hc := h c List.mem_cons_self
    obtain ⟨hout, hfold⟩ := ih fun d hd => h d (List.mem_cons_of_mem c hd)
    constructor
    · simp [outside, isOutside, quoteAfter, hc, hout]
    · simpa [quoteAfter, hc] using hfold

theorem outside_of_blank (h : ∀ c ∈ s, isBlank c = true) :
    outside none s = s ∧ s.foldl quoteAfter none = none :=
  outside_of_bare fun c hc => isQuote_of_isBlank (h c hc)

theorem trimLeft_spec (s : List Char) :
    ∃ blanks, s = blanks ++ trimLeft s ∧ ∀ c ∈ blanks, isBlank c = true :=
  ⟨s.takeWhile isBlank, List.takeWhile_append_dropWhile.symm,
    fun _ hc => List.all_eq_true.1 List.all_takeWhile _ hc⟩

theorem trimRight_spec (s : List Char) :
    ∃ blanks, s = trimRight s ++ blanks ∧ ∀ c ∈ blanks, isBlank c = true := by
  obtain ⟨blanks, hs, hblank⟩ := trimLeft_spec s.reverse
  refine ⟨blanks.reverse, ?_, fun c hc => hblank c (List.mem_reverse.1 hc)⟩
  have hrev := congrArg List.reverse hs
  rwa [List.reverse_reverse, List.reverse_append] at hrev

theorem outside_trimLeft (s : List Char) :
    (outside none (trimLeft s)).Sublist (outside none s) ∧
      (trimLeft s).foldl quoteAfter none = s.foldl quoteAfter none := by
  obtain ⟨blanks, hs, hblank⟩ := trimLeft_spec s
  obtain ⟨-, hfold⟩ := outside_of_blank hblank
  have hout := outside_append none blanks (trimLeft s)
  have hquote : (blanks ++ trimLeft s).foldl quoteAfter none = (trimLeft s).foldl quoteAfter none := by
    rw [List.foldl_append, hfold]
  rw [← hs] at hquote
  rw [← hs, hfold] at hout
  exact ⟨hout ▸ List.sublist_append_right _ _, hquote.symm⟩

section Counting

variable (hp : ∀ c, isBlank c = true → p c = false)
include hp

theorem countP_outside_of_blank (quote : Option Char) (h : ∀ c ∈ s, isBlank c = true) :
    (outside quote s).countP p = 0 := by
  rw [List.countP_eq_zero]
  intro c hc
  rw [hp c (h c ((outside_sublist quote s).subset hc))]
  exact Bool.false_ne_true

theorem countP_outside_trimRight (s : List Char) :
    (outside none (trimRight s)).countP p = (outside none s).countP p := by
  obtain ⟨blanks, hs, hblank⟩ := trimRight_spec s
  have hout := outside_append none (trimRight s) blanks
  rw [← hs] at hout
  rw [hout, List.countP_append, countP_outside_of_blank hp _ hblank, Nat.add_zero]

/-- Characters that are not blank are counted alike in a text and in what trimming leaves
of it. -/
theorem countP_outside_trim (s : List Char) :
    (outside none (trim s)).countP p = (outside none s).countP p := by
  obtain ⟨blanks, hs, hblank⟩ := trimLeft_spec s
  have hout := outside_append none blanks (trimLeft s)
  rw [← hs, (outside_of_blank hblank).2] at hout
  rw [trim, countP_outside_trimRight hp, hout, List.countP_append, countP_outside_of_blank hp _ hblank,
    Nat.zero_add]

end Counting

theorem trimLeft_cons (hc : isBlank c = false) (s : List Char) : trimLeft (c :: s) = c :: s := by
  simp [trimLeft, hc]

theorem trimLeft_append_cons (hc : isBlank c = false) (x y : List Char) :
    trimLeft (x ++ c :: y) = trimLeft x ++ c :: y := by
  induction x with
  | nil => exact trimLeft_cons hc y
  | cons d x ih =>
    simp only [trimLeft, List.cons_append, List.dropWhile_cons] at ih ⊢
    split
    · exact ih
    · rfl

theorem trimRight_append_cons (hc : isBlank c = false) (x y : List Char) :
    trimRight (x ++ c :: y) = x ++ c :: trimRight y := by
  have h := trimLeft_append_cons hc y.reverse x.reverse
  simp only [trimLeft] at h
  simp [trimRight, h]

/-- Trimming a text trims what stands on both sides of a character that is not blank. -/
theorem trim_around (hc : isBlank c = false) (x y : List Char) :
    trim (x ++ c :: y) = trimLeft x ++ c :: trimRight y := by
  rw [trim, trimLeft_append_cons hc, trimRight_append_cons hc]

theorem mem_of_mem_trim (h : c ∈ trim s) : c ∈ s := by
  obtain ⟨front, hs, -⟩ := trimLeft_spec s
  obtain ⟨back, ht, -⟩ := trimRight_spec (trimLeft s)
  rw [hs, ht]
  exact List.mem_append_right _ (List.mem_append_left _ h)

theorem trimLeft_eq_self (h : ∀ c ∈ s.head?, isBlank c = false) : trimLeft s = s := by
  cases s with
  | nil => rfl
  | cons c s => exact trimLeft_cons (h c rfl) s

theorem trimRight_eq_self (h : ∀ c ∈ s.getLast?, isBlank c = false) : trimRight s = s := by
  have hrev : trimLeft s.reverse = s.reverse := trimLeft_eq_self (by simpa using h)
  have htrim : trimRight s = (trimLeft s.reverse).reverse := rfl
  rw [htrim, hrev, List.reverse_reverse]

theorem trim_eq_self (hhead : ∀ c ∈ s.head?, isBlank c = false)
    (hlast : ∀ c ∈ s.getLast?, isBlank c = false) : trim s = s := by
  rw [trim, trimLeft_eq_self hhead, trimRight_eq_self hlast]

/-- A text from whose ends all characters of a kind have been dropped has none there. -/
theorem ends_of_dropWhile (p : Char → Bool) (s : List Char) :
    (∀ c ∈ ((s.dropWhile p).reverse.dropWhile p).reverse.head?, p c = false) ∧
      ∀ c ∈ ((s.dropWhile p).reverse.dropWhile p).reverse.getLast?, p c = false := by
  have hfirst : ∀ (l : List Char), ∀ c ∈ (l.dropWhile p).head?, p c = false := by
    intro l c hc
    have hhead := List.head?_dropWhile_not p l
    rw [Option.mem_def.1 hc] at hhead
    exact hhead
  refine ⟨fun c hc => hfirst s c ?_, fun c hc => hfirst (s.dropWhile p).reverse c ?_⟩
  · have hpre := List.reverse_prefix.2 (List.dropWhile_suffix p (l := (s.dropWhile p).reverse))
    rw [List.reverse_reverse] at hpre
    obtain ⟨back, hback⟩ := hpre
    rw [← hback, List.head?_append, Option.mem_def.1 hc]
    rfl
  · rwa [List.getLast?_reverse] at hc

theorem trim_trim (s : List Char) : trim (trim s) = trim s :=
  trim_eq_self (ends_of_dropWhile isBlank s).1 (ends_of_dropWhile isBlank s).2

/-- A text that nothing is trimmed off has no blanks at its ends. -/
theorem ends_of_trim (h : trim s = s) :
    (∀ c ∈ s.head?, isBlank c = false) ∧ ∀ c ∈ s.getLast?, isBlank c = false := by
  have hends := ends_of_dropWhile isBlank s
  change (∀ c ∈ (trim s).head?, _) ∧ ∀ c ∈ (trim s).getLast?, _ at hends
  rwa [h] at hends

/-- A blank before a text that starts with something else is all there is to trim off. -/
theorem trimLeft_blank_append (hc : isBlank c = true) (hne : x ≠ [])
    (hhead : ∀ d ∈ x.head?, isBlank d = false) (y : List Char) : trimLeft (c :: (x ++ y)) = x ++ y := by
  have hskip : trimLeft (c :: (x ++ y)) = trimLeft (x ++ y) := by simp [trimLeft, hc]
  cases x with
  | nil => exact absurd rfl hne
  | cons d x => exact hskip.trans (trimLeft_cons (hhead d rfl) (x ++ y))

theorem trim_blank_cons (hc : isBlank c = true) (s : List Char) : trim (c :: s) = trim s := by
  simp [trim, trimLeft, hc]

theorem trimRight_concat_blank (hc : isBlank c = true) (s : List Char) :
    trimRight (s ++ [c]) = trimRight s := by
  simp [trimRight, hc]

/-- A blank at the front of a text that is split is trimmed off its first piece. -/
theorem map_trim_splitOutside_blank (hc : isBlank c = true) (hp : p c = false) (s : List Char) :
    (splitOutside p none (c :: s)).map trim = (splitOutside p none s).map trim := by
  have hquote := isQuote_of_isBlank hc
  have hafter : quoteAfter none c = none := by simp [quoteAfter, hquote]
  rw [splitOutside, hp, Bool.and_false, if_neg Bool.false_ne_true, hafter]
  cases hs : splitOutside p none s with
  | nil => exact absurd hs (splitOutside_ne_nil p none s)
  | cons w ws => rw [List.map_cons, List.map_cons, trim_blank_cons hc]

/-! ## One pair of quotes -/

/-- The text is not empty and has no blanks at its ends. -/
structure Tidy (s : List Char) : Prop where
  ne_nil : s ≠ []
  trim : trim s = s

theorem trim_unquote (s : List Char) : trim (unquote s) = unquote s := by
  unfold unquote
  split
  · rfl
  · rename_i q r htrim
    split
    · exact trim_trim _
    · rw [← htrim, trim_trim]

theorem tidy_unquote (h : unquote s ≠ []) : Tidy (unquote s) := ⟨h, trim_unquote s⟩

theorem unquote_quoted (hquote : isQuote c = true) (s : List Char) : unquote (c :: s ++ [c]) = trim s := by
  have hblank : isBlank c = false := by
    rw [Bool.eq_false_iff]
    intro h
    rw [isQuote_of_isBlank h] at hquote
    exact Bool.false_ne_true hquote
  have hlast : ∀ d ∈ (c :: s ++ [c]).getLast?, isBlank d = false := by
    rw [List.getLast?_concat]
    rintro d ⟨⟩
    exact hblank
  have htrim : trim (c :: s ++ [c]) = c :: s ++ [c] := trim_eq_self (by simp [hblank]) hlast
  rw [unquote, htrim]
  simp [hquote]

theorem unquote_bare (h : ∀ c ∈ s, isQuote c = false) : unquote s = trim s := by
  rw [unquote]
  cases htrim : trim s with
  | nil => rfl
  | cons c r =>
    have hc : isQuote c = false := h c (mem_of_mem_trim (htrim ▸ List.mem_cons_self))
    simp [hc]

/-! ## Lines -/

/-- A text of whole lines. -/
def WholeLines (s : List Char) : Prop := s = [] ∨ s.getLast? = some '\n'

theorem linesFrom_line (current x y : List Char) :
    linesFrom current (x ++ '\n' :: y) = linesFrom current (x ++ ['\n']) ++ lines y := by
  induction x generalizing current with
  | nil => rfl
  | cons c x ih =>
    simp only [List.cons_append, linesFrom, ih]
    split <;> rfl

theorem lines_append (hx : WholeLines x) (y : List Char) : lines (x ++ y) = lines x ++ lines y := by
  rcases hx with rfl | hlast
  · rfl
  · obtain ⟨x', rfl⟩ := List.getLast?_eq_some_iff.1 hlast
    rw [List.append_assoc]
    exact linesFrom_line [] x' y

theorem linesFrom_past (h : '\n' ∉ x) (current y : List Char) :
    linesFrom current (x ++ '\n' :: y) = dropReturn (current.reverse ++ x) :: lines y := by
  induction x generalizing current with
  | nil => simp [linesFrom, lines]
  | cons c x ih =>
    rw [List.mem_cons, not_or] at h
    rw [List.cons_append, linesFrom, if_neg (Ne.symm h.1), ih h.2]
    simp

/-- Lines that are put one after the other, each with a line feed behind it, are the lines
of the text. -/
theorem lines_flatMap {l : List (List Char)} (h : ∀ line ∈ l, '\n' ∉ line ∧ line.getLast? ≠ some '\r') :
    lines (l.flatMap (· ++ ['\n'])) = l := by
  induction l with
  | nil => rfl
  | cons line l ih =>
    obtain ⟨hfeed, hreturn⟩ := h line List.mem_cons_self
    have hline := linesFrom_past hfeed [] (l.flatMap (· ++ ['\n']))
    rw [List.reverse_nil, List.nil_append, dropReturn, if_neg hreturn,
      ih fun line' h' => h line' (List.mem_cons_of_mem line h')] at hline
    rw [List.flatMap_cons, List.append_assoc]
    exact hline

end SeedData.Text
