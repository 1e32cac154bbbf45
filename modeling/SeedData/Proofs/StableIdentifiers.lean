/-
Identifiers are where the making of identifiers comes to rest: a name is its own identifier exactly if it
has the form of one (`normalize_eq_self_iff`). Which foreign characters a name holds makes no difference,
only where a run of them stands (`normalize_replace_foreign`).

Lower case looks at what stands around a sigma, so the lower case of a text is not made of those of its
parts. All forms of a sigma are foreign to identifiers, though: up to such characters the lower case of a
text is that of its characters one by one (`alike_lowercaseFrom`).
-/
import Mathlib.Data.List.Forall2
import SeedData.Proofs.Identifiers
import SeedData.Proofs.LowerCase

namespace SeedData.Identifier

variable {name : String} {s t run other : List Char} {inRun : Bool}

/-! ## Names that stay as they are -/

theorem isLow_of_isPlain {c : Char} (h : isPlain c = true) : Text.IsLow c := by
  have hascii : ∀ n < 0x80, isPlain (Char.ofNat n) = true → Text.IsLow (Char.ofNat n) := by decide
  have hc : c.toNat < 0x80 := by
    rw [isPlain, Bool.or_eq_true, Bool.or_eq_true] at h
    rcases h with (hletter | hdigit) | hmark
    · exact Nat.lt_of_le_of_lt (of_decide_eq_true (Bool.and_eq_true_iff.1 hletter).2) (by decide)
    · exact Nat.lt_of_le_of_lt (of_decide_eq_true (Bool.and_eq_true_iff.1 hdigit).2) (by decide)
    · rw [eq_of_beq hmark]
      decide
  have hlow := hascii c.toNat hc
  rw [Char.ofNat_toNat] at hlow
  exact hlow h

theorem flatten_eq_self (h : ∀ c ∈ s, isPlain c = true) : flatten inRun s = s := by
  induction s generalizing inRun with
  | nil => rfl
  | cons c s ih =>
    obtain ⟨hc, hs⟩ := List.forall_mem_cons.1 h
    rw [flatten, if_pos hc, ih hs]

theorem strip_eq_self (hfirst : ∀ c ∈ s.head?, c ≠ '_') (hlast : ∀ c ∈ s.getLast?, c ≠ '_') :
    strip s = s := by
  have hkept : ∀ l : List Char, (∀ c ∈ l.head?, c ≠ '_') → l.dropWhile (· == '_') = l := by
    intro l hl
    cases l with
    | nil => rfl
    | cons c l => exact List.dropWhile_cons_of_neg (by simpa using hl c rfl)
  rw [strip, hkept s hfirst, hkept s.reverse (by rwa [List.head?_reverse]), List.reverse_reverse]

theorem anchor_eq_self (hne : s ≠ []) (hfirst : ∀ c ∈ s.head?, c.isDigit = false) : anchor s = s := by
  cases s with
  | nil => exact absurd rfl hne
  | cons c s => rw [anchor, if_neg (by simp [hfirst c rfl])]

/-- A name that has the form of an identifier is its own identifier, and no other is. -/
theorem normalize_eq_self_iff : normalize name = name ↔ IsIdentifier name := by
  constructor
  · intro h
    exact h ▸ isIdentifier_normalize name
  · intro h
    have hne : name.toList ≠ [] := fun hempty => h.ne_empty (String.toList_eq_nil_iff.1 hempty)
    rw [normalize, normalizeChars, Text.lowercase_of_low fun c hc => isLow_of_isPlain (h.plain c hc),
      flatten_eq_self h.plain, strip_eq_self (fun c hc => (h.first c hc).2) h.last,
      anchor_eq_self hne fun c hc => (h.first c hc).1, String.ofList_toList]

/-! ## Foreign characters -/

/-- Lower case makes no character of it that can stand in an identifier. -/
def isForeign (c : Char) : Bool := (Text.lowercase [c]).all (!isPlain ·)

/-- Foreign characters one after another, one at least. -/
structure IsForeignRun (run : String) : Prop where
  ne_empty : run ≠ ""
  foreign : ∀ c ∈ run.toList, isForeign c = true

/-- The texts differ at most in characters that cannot stand in an identifier. -/
def Alike : List Char → List Char → Prop :=
  List.Forall₂ fun c d => c = d ∨ (isPlain c = false ∧ isPlain d = false)

theorem Alike.refl (s : List Char) : Alike s s := List.forall₂_same.2 fun _ _ => .inl rfl

theorem flatten_cons_of_not_plain {c : Char} (h : isPlain c = false) (s : List Char) :
    flatten inRun (c :: s) = if inRun then flatten true s else '_' :: flatten true s := by
  rw [flatten, if_neg (by simp [h])]

theorem flatten_congr (h : Alike s t) : flatten inRun s = flatten inRun t := by
  induction h generalizing inRun with
  | nil => rfl
  | cons hcd _ ih =>
    rcases hcd with rfl | ⟨hc, hd⟩
    · rw [flatten, flatten, ih, ih]
    · rw [flatten_cons_of_not_plain hc, flatten_cons_of_not_plain hd, ih]

/-- Lower case is made character by character, but for the form of a sigma. -/
theorem alike_lowercaseFrom (before s : List Char) :
    Alike (Text.lowercaseFrom before s) (s.flatMap fun c => Text.lowercase [c]) := by
  have hsigma : ∀ before after, isPlain (Text.lowerSigma before after) = false := by
    intro before after
    unfold Text.lowerSigma
    split <;> decide
  induction s generalizing before with
  | nil => exact .nil
  | cons c s ih =>
    rw [List.flatMap_cons]
    refine List.rel_append ?_ (ih (c :: before))
    rw [Text.lowercase, Text.lowercaseFrom, Text.lowercaseFrom, List.append_nil]
    split
    · exact .cons (.inr ⟨hsigma _ _, hsigma _ _⟩) .nil
    · exact Alike.refl _

theorem flatten_run (h : ∀ c ∈ run, isPlain c = false) (t : List Char) :
    flatten true (run ++ t) = flatten true t := by
  induction run with
  | nil => rfl
  | cons c run ih =>
    obtain ⟨hc, hrun⟩ := List.forall_mem_cons.1 h
    rw [List.cons_append, flatten_cons_of_not_plain hc, if_pos rfl, ih hrun]

/-- A run of characters that cannot stand in an identifier comes to one mark, or to none behind others. -/
theorem flatten_mark (hne : run ≠ []) (hrun : ∀ c ∈ run, isPlain c = false) (t : List Char) :
    flatten inRun (run ++ t) = if inRun then flatten true t else '_' :: flatten true t := by
  cases run with
  | nil => exact absurd rfl hne
  | cons c run =>
    obtain ⟨hc, hrun⟩ := List.forall_mem_cons.1 hrun
    rw [List.cons_append, flatten_cons_of_not_plain hc, flatten_run hrun]

theorem flatten_replace (hne : run ≠ []) (hrun : ∀ c ∈ run, isPlain c = false) (hne' : other ≠ [])
    (hother : ∀ c ∈ other, isPlain c = false) (s t : List Char) :
    flatten inRun (s ++ (run ++ t)) = flatten inRun (s ++ (other ++ t)) := by
  induction s generalizing inRun with
  | nil => rw [List.nil_append, List.nil_append, flatten_mark hne hrun, flatten_mark hne' hother]
  | cons c s ih => rw [List.cons_append, List.cons_append, flatten, flatten, ih, ih]

/-- What lower case makes of a run, character by character. -/
theorem IsForeignRun.lowered {run : String} (h : IsForeignRun run) :
    (run.toList.flatMap fun c => Text.lowercase [c]) ≠ [] ∧
      ∀ d ∈ run.toList.flatMap fun c => Text.lowercase [c], isPlain d = false := by
  constructor
  · obtain ⟨c, s, hrun⟩ := List.exists_cons_of_ne_nil fun hempty => h.ne_empty (String.toList_eq_nil_iff.1 hempty)
    obtain ⟨low, hlow, hne, -⟩ := Text.lowercaseFrom_cons [] c []
    rw [hrun, List.flatMap_cons, Text.lowercase, hlow]
    simp [hne]
  · intro d hd
    obtain ⟨c, hc, hd⟩ := List.mem_flatMap.1 hd
    simpa using List.all_eq_true.1 (h.foreign c hc) d hd

theorem normalize_replace_foreign {run other : String} (hrun : IsForeignRun run) (hother : IsForeignRun other)
    (before after : String) : normalize (before ++ run ++ after) = normalize (before ++ other ++ after) := by
  have hparts : ∀ run : String, flatten false (Text.lowercase (before ++ run ++ after).toList) =
      flatten false ((before.toList.flatMap fun c => Text.lowercase [c]) ++
        ((run.toList.flatMap fun c => Text.lowercase [c]) ++ after.toList.flatMap fun c => Text.lowercase [c])) := by
    intro run
    rw [← List.flatMap_append, ← List.flatMap_append, ← String.toList_append, ← String.toList_append,
      ← String.append_assoc]
    exact flatten_congr (alike_lowercaseFrom [] _)
  rw [normalize, normalize, normalizeChars, normalizeChars, hparts run, hparts other,
    flatten_replace hrun.lowered.1 hrun.lowered.2 hother.lowered.1 hother.lowered.2]

/-- **An identifier is made of any text, and made again it stays as it is**: it is not empty, of lower-case
letters, digits and underscores, starts with a letter and ends with no underscore, and names of this form
are the only ones that stay. A run of foreign characters in the text can be any other such run. -/
theorem identifiers_are_safe_and_stable (raw : String) :
    IsIdentifier (normalize raw) ∧
    (normalize raw = raw ↔ IsIdentifier raw) ∧
    normalize (normalize raw) = normalize raw ∧
    ∀ before run after, raw = before ++ run ++ after → IsForeignRun run →
      ∀ other, IsForeignRun other → normalize raw = normalize (before ++ other ++ after) := by
  refine ⟨isIdentifier_normalize raw, normalize_eq_self_iff,
    normalize_eq_self_iff.2 (isIdentifier_normalize raw), ?_⟩
  rintro before run after rfl hrun other hother
  exact normalize_replace_foreign hrun hother before after

/-- A sigma in front of the run has another form before the letter than before the mark, and the dotted
capital I behind it is a letter of ASCII with a dot. -/
theorem run_behind_sigma_is_one_mark :
    IsForeignRun "!" ∧ IsForeignRun "É–" ∧ ¬ IsForeignRun "\u0130" ∧
      normalize ("AΣ" ++ "!" ++ "\u0130d") = normalize ("AΣ" ++ "É–" ++ "\u0130d") ∧
      normalize ("AΣ" ++ "!" ++ "\u0130d") = "a_i_d" := by
  have hmark : IsForeignRun "!" := ⟨by decide, List.all_eq_true.1 (by decide +kernel)⟩
  have hletter : IsForeignRun "É–" := ⟨by decide, List.all_eq_true.1 (by decide +kernel)⟩
  refine ⟨hmark, hletter, fun h => ?_, ?_, by decide +kernel⟩
  · exact absurd (h.foreign '\u0130' (by decide)) (by decide +kernel)
  · obtain ⟨-, -, -, hreplace⟩ := identifiers_are_safe_and_stable ("AΣ" ++ "!" ++ "\u0130d")
    exact hreplace "AΣ" "!" "\u0130d" rfl hmark "É–" hletter

end SeedData.Identifier
