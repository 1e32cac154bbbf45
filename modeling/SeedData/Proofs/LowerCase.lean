/-
What lower case does to a text. Every form that the case data gives is one that stays (`caseRuns_clear`), so
what is in lower case is its own lower case (`lowercase_of_low`), a text as well as each part of it. No
characters of ASCII but small letters are made, nor are blanks (`eq_of_lowerChar_unlettered`).
-/
import Mathlib.Data.Bool.AllAny
import Mathlib.Data.List.Basic
import SeedData.Proofs.Quotations
import SeedData.Text.Lowercase

namespace SeedData.Text

variable {c d : Char} {s : List Char}

/-! ## The case data -/

/-- The lower-case form of the first character of a run. -/
def CaseRun.lowFirst (run : CaseRun) : Nat := (run.first + run.shift).toNat

/-- The lower-case form of the last character of a run. -/
def CaseRun.lowLast (run : CaseRun) : Nat := (run.last + run.shift).toNat

/-- No lower-case form of a run is between the two code points. -/
def CaseRun.misses (run : CaseRun) (first last : Nat) : Bool := run.lowLast < first || last < run.lowFirst

theorem CaseRun.misses_iff {run : CaseRun} {first last : Nat} : run.misses first last = true ↔
    (run.last + run.shift).toNat < first ∨ last < (run.first + run.shift).toNat := by
  rw [misses, Bool.or_eq_true, decide_eq_true_iff, decide_eq_true_iff, lowLast, lowFirst]

/-- No lower-case form of a run is a character of the other: they are apart, or they have every second code
point and take turns. -/
def CaseRun.clears (run other : CaseRun) : Bool :=
  run.misses other.first other.last ||
    ((run.stride == 2 || run.first == run.last) && other.stride == 2 &&
      (run.first + run.shift - (other.first : Int)) % 2 == 1)

theorem caseRuns_clear : (caseRuns.all fun run => caseRuns.all run.clears) = true := by decide +kernel

theorem caseRuns_valid : (caseRuns.all fun run => 0 ≤ run.first + run.shift && run.misses 0xD800 0xDFFF &&
    run.lowLast < 0x110000) = true := by decide +kernel

/-- The characters of ASCII that are no small letters, and the capital letters and blanks beyond it that
lower case has to be told from. -/
def unlettered : List (Nat × Nat) :=
  [(0, 0x60), (0x7B, 0x7F), (0x85, 0x85), (0xA0, 0xA0), (0x130, 0x130), (0x3A3, 0x3A3), (0x1680, 0x1680),
    (0x2000, 0x200A), (0x2028, 0x2029), (0x202F, 0x202F), (0x205F, 0x205F), (0x3000, 0x3000)]

theorem caseRuns_lettered :
    (caseRuns.all fun run => unlettered.all fun range => run.misses range.1 range.2) = true := by decide +kernel

/-! ## Single characters -/

theorem CaseRun.not_holds_of_clears {run other : CaseRun} {n m : Nat} (hclears : run.clears other = true)
    (hn : run.holds n = true) (hm : (m : Int) = n + run.shift) : other.holds m = false := by
  rw [Bool.eq_false_iff]
  intro hother
  simp only [CaseRun.holds, Bool.and_eq_true, decide_eq_true_eq, beq_iff_eq] at hn hother
  simp only [CaseRun.clears, CaseRun.misses_iff, Bool.or_eq_true, Bool.and_eq_true, beq_iff_eq] at hclears
  obtain ⟨⟨hfirst, hlast⟩, hstep⟩ := hn
  obtain ⟨⟨hfirst', hlast'⟩, hstep'⟩ := hother
  rcases hclears with (h | h) | ⟨⟨hstride, hstride'⟩, hodd⟩
  · omega
  · omega
  · rw [hstride'] at hstep'
    rcases hstride with hstride | hsingle
    · rw [hstride] at hstep
      omega
    · omega

/-- A character is its own lower case, or a run of the case data holds it. -/
theorem lowerChar_cases (c : Char) : lowerChar c = c ∨
    ∃ run ∈ caseRuns, run.holds c.toNat = true ∧ ((lowerChar c).toNat : Int) = c.toNat + run.shift := by
  have hascii : ∀ n < 0x80, (Char.ofNat n).toLower = Char.ofNat n ∨
      0x41 ≤ n ∧ n ≤ 0x5A ∧ (Char.ofNat n).toLower.toNat = n + 32 := by decide
  unfold lowerChar
  split
  · rename_i hsmall
    have hc := hascii c.toNat hsmall
    rw [Char.ofNat_toNat] at hc
    refine hc.imp_right fun ⟨hfirst, hlast, hshift⟩ => ⟨⟨0x41, 0x5A, 1, 32⟩, List.mem_cons_self, ?_, ?_⟩
    · simp [CaseRun.holds, hfirst, hlast, Nat.mod_one]
    · rw [hshift]
      rfl
  · split
    · rename_i run hrun
      right
      have hmem := List.mem_of_find?_eq_some hrun
      have hholds : run.holds c.toNat = true := by simpa using List.find?_some hrun
      refine ⟨run, hmem, hholds, ?_⟩
      have hvalid := List.all_eq_true.1 caseRuns_valid run hmem
      simp only [CaseRun.holds, CaseRun.misses_iff, Bool.and_eq_true, decide_eq_true_eq, beq_iff_eq]
        at hholds hvalid
      rw [CaseRun.lowLast] at hvalid
      have hscalar : ((c.toNat : Int) + run.shift).toNat.isValidChar := by
        unfold Nat.isValidChar
        omega
      rw [Char.ofNat, dif_pos hscalar]
      show ((((c.toNat : Int) + run.shift).toNat : Nat) : Int) = _
      omega
    · exact .inl rfl

/-- What lower case does not make of anything else. -/
def isUnlettered (c : Char) : Bool := unlettered.any fun range => range.1 ≤ c.toNat && c.toNat ≤ range.2

theorem isUnlettered_of_isBlank (h : isBlank c = true) : isUnlettered c = true := by
  simp only [isBlank, Bool.or_eq_true, Bool.and_eq_true, decide_eq_true_eq, beq_iff_eq] at h
  simp only [isUnlettered, unlettered, List.any_cons, List.any_nil, Bool.or_eq_true, Bool.and_eq_true,
    decide_eq_true_eq, Bool.or_false]
  omega

/-- What no run makes is the lower case of itself only. -/
theorem eq_of_lowerChar_unlettered (h : isUnlettered (lowerChar c) = true) : lowerChar c = c := by
  rcases lowerChar_cases c with hsame | ⟨run, hrun, hholds, hshift⟩
  · exact hsame
  · obtain ⟨range, hrange, hin⟩ := List.any_eq_true.1 h
    have hmisses := List.all_eq_true.1 (List.all_eq_true.1 caseRuns_lettered run hrun) range hrange
    simp only [CaseRun.holds, CaseRun.misses_iff, Bool.and_eq_true, decide_eq_true_eq, beq_iff_eq]
      at hholds hmisses hin
    omega

/-- The character stays as it is in lower case, wherever it stands. -/
def IsLow (c : Char) : Prop := c ≠ 'Σ' ∧ c ≠ '\u0130' ∧ lowerChar c = c

instance : DecidablePred IsLow := fun _ => inferInstanceAs (Decidable (_ ∧ _ ∧ _))

theorem isLow_lowerChar (hsigma : c ≠ 'Σ') (hdotted : c ≠ '\u0130') : IsLow (lowerChar c) := by
  have hne : ∀ d, isUnlettered d = true → c ≠ d → lowerChar c ≠ d := by
    rintro d hd hcd rfl
    exact hcd (eq_of_lowerChar_unlettered hd).symm
  refine ⟨hne 'Σ' (by decide) hsigma, hne '\u0130' (by decide) hdotted, ?_⟩
  rcases lowerChar_cases c with hsame | ⟨run, hrun, hholds, hshift⟩
  · rw [hsame, hsame]
  · rcases lowerChar_cases (lowerChar c) with hsame | ⟨other, hother, hholds', -⟩
    · exact hsame
    · have hclears := List.all_eq_true.1 (List.all_eq_true.1 caseRuns_clear run hrun) other hother
      rw [CaseRun.not_holds_of_clears hclears hholds hshift] at hholds'
      cases hholds'

/-! ## Small letters of ASCII -/

theorem toLower_of_not_ascii (h : 0x80 ≤ c.toNat) : c.toLower = c := by
  refine dif_neg fun hcapital => ?_
  have hlast : c.toNat ≤ 'Z'.toNat := hcapital.2
  exact absurd (Nat.le_trans h hlast) (by decide)

theorem lowerChar_of_ascii (h : c.toNat < 0x80) : lowerChar c = c.toLower := if_pos h

theorem toLower_of_low (h : IsLow c) : c.toLower = c := by
  by_cases hascii : c.toNat < 0x80
  · rw [← lowerChar_of_ascii hascii]
    exact h.2.2
  · exact toLower_of_not_ascii (Nat.not_lt.1 hascii)

theorem eq_of_toLower_unlettered (h : isUnlettered c.toLower = true) : c.toLower = c := by
  by_cases hascii : c.toNat < 0x80
  · rw [← lowerChar_of_ascii hascii] at h ⊢
    exact eq_of_lowerChar_unlettered h
  · exact toLower_of_not_ascii (Nat.not_lt.1 hascii)

theorem toLower_eq_iff (hd : isUnlettered d = true) (hsmall : d.toLower = d) : c.toLower = d ↔ c = d := by
  constructor
  · rintro rfl
    exact (eq_of_toLower_unlettered hd).symm
  · rintro rfl
    exact hsmall

theorem toLower_of_isBlank (h : isBlank c = true) : c.toLower = c := by
  have hascii : ∀ n < 0x80, isBlank (Char.ofNat n) = true → (Char.ofNat n).toLower = Char.ofNat n := by decide
  by_cases hc : c.toNat < 0x80
  · have hsame := hascii c.toNat hc
    rw [Char.ofNat_toNat] at hsame
    exact hsame h
  · exact toLower_of_not_ascii (Nat.not_lt.1 hc)

theorem isBlank_toLower (c : Char) : isBlank c.toLower = isBlank c := by
  rw [Bool.eq_iff_iff]
  constructor
  · intro h
    rwa [eq_of_toLower_unlettered (isUnlettered_of_isBlank h)] at h
  · intro h
    rwa [toLower_of_isBlank h]

/-! ## Texts -/

/-- The lower case of a text starts with that of its first character: characters that stay as they are, and
only the character itself if it is no letter. -/
theorem lowercaseFrom_cons (before : List Char) (c : Char) (s : List Char) :
    ∃ low, lowercaseFrom before (c :: s) = low ++ lowercaseFrom (c :: before) s ∧ low ≠ [] ∧
      ∀ d ∈ low, IsLow d ∧ (isUnlettered d = true → d = c) := by
  refine ⟨_, rfl, ?_, ?_⟩
  · split
    · simp
    · split <;> simp
  · split
    · have hsigma : ∀ d ∈ ['ς', 'σ'], IsLow d ∧ isUnlettered d = false :=
        List.all_iff_forall_prop.1 (by decide +kernel)
      rw [List.forall_mem_singleton, lowerSigma]
      split
      · exact ⟨(hsigma 'ς' (by decide)).1, by simp [(hsigma 'ς' (by decide)).2]⟩
      · exact ⟨(hsigma 'σ' (by decide)).1, by simp [(hsigma 'σ' (by decide)).2]⟩
    · split
      · have hdotted : ∀ d ∈ ['i', '\u0307'], IsLow d ∧ isUnlettered d = false :=
          List.all_iff_forall_prop.1 (by decide +kernel)
        exact fun d hd => ⟨(hdotted d hd).1, by simp [(hdotted d hd).2]⟩
      · rename_i hsigma hdotted
        rw [List.forall_mem_singleton]
        exact ⟨isLow_lowerChar hsigma hdotted, eq_of_lowerChar_unlettered⟩

theorem of_mem_lowercaseFrom {before : List Char} (h : d ∈ lowercaseFrom before s) :
    IsLow d ∧ (isUnlettered d = true → d ∈ s) := by
  induction s generalizing before with
  | nil => cases h
  | cons c s ih =>
    obtain ⟨low, hlow, -, hmem⟩ := lowercaseFrom_cons before c s
    rw [hlow, List.mem_append] at h
    rcases h with h | h
    · exact ⟨(hmem d h).1, fun hd => (hmem d h).2 hd ▸ List.mem_cons_self⟩
    · exact ⟨(ih h).1, fun hd => List.mem_cons_of_mem c ((ih h).2 hd)⟩

/-- All characters of a text in lower case stay as they are. -/
theorem isLow_of_mem_lowercase (h : c ∈ lowercase s) : IsLow c := (of_mem_lowercaseFrom h).1

theorem mem_of_mem_lowercase (hc : isUnlettered c = true) (h : c ∈ lowercase s) : c ∈ s :=
  (of_mem_lowercaseFrom h).2 hc

theorem mem_lowercase_of_mem (hc : IsLow c) (h : c ∈ s) : c ∈ lowercase s := by
  suffices hfrom : ∀ before, c ∈ lowercaseFrom before s from hfrom []
  induction s with
  | nil => cases h
  | cons d s ih =>
    intro before
    rw [lowercaseFrom, List.mem_append]
    rcases List.mem_cons.1 h with rfl | h
    · left
      rw [if_neg hc.1, if_neg hc.2.1, hc.2.2]
      exact List.mem_singleton_self c
    · exact .inr (ih h _)

/-- Lower case is that of ASCII where the other characters stay as they are. -/
theorem lowercase_eq_map (h : ∀ c ∈ s, 0x80 ≤ c.toNat → IsLow c) : lowercase s = s.map Char.toLower := by
  suffices hfrom : ∀ before, lowercaseFrom before s = s.map Char.toLower from hfrom []
  induction s with
  | nil => exact fun _ => rfl
  | cons c s ih =>
    intro before
    have hrest := ih (fun d hd => h d (List.mem_cons_of_mem c hd)) (c :: before)
    have hchar : c ≠ 'Σ' ∧ c ≠ '\u0130' ∧ lowerChar c = c.toLower := by
      by_cases hascii : c.toNat < 0x80
      · refine ⟨?_, ?_, lowerChar_of_ascii hascii⟩
        · rintro rfl
          exact absurd hascii (by decide)
        · rintro rfl
          exact absurd hascii (by decide)
      · have hlow := h c List.mem_cons_self (Nat.not_lt.1 hascii)
        exact ⟨hlow.1, hlow.2.1, by rw [hlow.2.2, toLower_of_low hlow]⟩
    rw [lowercaseFrom, if_neg hchar.1, if_neg hchar.2.1, hchar.2.2, hrest]
    rfl

/-- A text of characters that stay as they are is its own lower case. -/
theorem lowercase_of_low (h : ∀ c ∈ s, IsLow c) : lowercase s = s := by
  rw [lowercase_eq_map fun c hc _ => h c hc]
  exact (List.map_congr_left fun c hc => toLower_of_low (h c hc)).trans (List.map_id' s)

/-- The ends of a text in lower case are blank only if those of the text are. -/
theorem trim_lowercase (h : trim s = s) : trim (lowercase s) = lowercase s := by
  obtain ⟨hhead, hlast⟩ := ends_of_trim h
  have hnot : ∀ {c d : Char}, isBlank c = false → (isUnlettered d = true → d = c) → isBlank d = false := by
    intro c d hc hd
    rw [Bool.eq_false_iff]
    intro hblank
    rw [hd (isUnlettered_of_isBlank hblank), hc] at hblank
    cases hblank
  refine trim_eq_self ?_ ?_
  · cases s with
    | nil => simp [lowercase, lowercaseFrom]
    | cons c s =>
      obtain ⟨low, hlow, hne, hmem⟩ := lowercaseFrom_cons [] c s
      rw [lowercase, hlow, List.head?_append_of_ne_nil _ hne]
      exact fun d hd => hnot (hhead c rfl) (hmem d (List.mem_of_mem_head? hd)).2
  · suffices hfrom : ∀ before, ∀ d ∈ (lowercaseFrom before s).getLast?, isBlank d = false from hfrom []
    clear h hhead
    induction s with
    | nil => simp [lowercaseFrom]
    | cons c s ih =>
      intro before d hd
      obtain ⟨low, hlow, hne, hmem⟩ := lowercaseFrom_cons before c s
      rw [hlow] at hd
      cases s with
      | nil =>
        rw [lowercaseFrom, List.append_nil] at hd
        exact hnot (hlast c rfl) (hmem d (List.mem_of_mem_getLast? hd)).2
      | cons e s =>
        obtain ⟨low', hlow', hne', -⟩ := lowercaseFrom_cons (c :: before) e s
        rw [List.getLast?_append_of_ne_nil _ (by simp [hlow', hne'])] at hd
        exact ih (fun d hd => hlast d (by rwa [List.getLast?_cons_cons])) _ d hd

end SeedData.Text
