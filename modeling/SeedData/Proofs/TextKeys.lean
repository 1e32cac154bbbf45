/-
Text keys, with every step of their arithmetic checked. The words that a key is made with never leave
their range and nothing is divided by zero (`Guarded.checkedText?_eq`), so a key is made unless it is the
ordinal alone in too many digits, and then it fits. Keys of different ordinals differ as far as the
capacity goes (`text_keys_fit_and_differ`).
-/
import SeedData.Proofs.GuardedRuns

namespace SeedData

variable {m n ordinal : UInt64} {width : Nat} {column : String} {maxLength : Option Nat}

namespace Guarded

/-! ## Words -/

/-- The difference of two words, unless it is below zero. -/
def difference? (m n : UInt64) : Option UInt64 := if n ≤ m then some (m - n) else none

/-- The sum of two words, unless it is past the last word. -/
def sum? (m n : UInt64) : Option UInt64 := if m.toNat + n.toNat < 2 ^ 64 then some (m + n) else none

/-- The power of ten, unless it is past the last word. -/
def power? (width : Nat) : Option UInt64 :=
  if 10 ^ width < 2 ^ 64 then some (UInt64.ofNat (10 ^ width)) else none

theorem difference?_eq_some (h : n ≤ m) : difference? m n = some (m - n) := if_pos h

theorem sum?_eq_some (h : m.toNat + n.toNat < 2 ^ 64) : sum? m n = some (m + n) := if_pos h

/-- The powers of ten that are words are those with twenty digits at most. -/
theorem power?_eq (width : Nat) :
    power? width = if width < 20 then some (UInt64.ofNat (Decimal.pow10 width)) else none := by
  have hword : 10 ^ width < 2 ^ 64 ↔ width < 20 := by
    constructor
    · intro h
      have hlast : 10 ^ width < 10 ^ 20 := Nat.lt_of_lt_of_le h (by decide)
      exact (Nat.pow_lt_pow_iff_right (by decide)).1 hlast
    · intro h
      have hpow : 10 ^ width ≤ 10 ^ 19 := Nat.pow_le_pow_right (by decide) (by omega)
      exact Nat.lt_of_le_of_lt hpow (by decide)
  simp only [power?, hword, Decimal.pow10]
  rfl

/-- Only the power of ten with the exponent zero is one. -/
theorem limit_eq_one_iff (h : width < 20) : UInt64.ofNat (Decimal.pow10 width) = 1 ↔ width = 0 := by
  rw [← UInt64.toNat_inj, toNat_limit h]
  exact Nat.pow_eq_one.trans (or_iff_right (by decide))

/-! ## Text keys -/

/-- The text key of an ordinal, unless a step of it is not defined: a word below zero or past the last, a
remainder by zero, or a number with more digits than a number is written with. -/
def checkedText? (column : String) (ordinal : UInt64) (maxLength : Option Nat) : Option String := do
  let long ← (padded? 5 ordinal.toNat).map (column ++ "_" ++ ·)
  match maxLength with
  | none => return long
  | some n =>
    if long.length ≤ n then return long
    else match power? n with
      | none => padded? n ordinal.toNat
      | some limit =>
        if limit = 1 then return ""
        else
          let before ← difference? ordinal 1
          let last ← difference? limit 1
          let turn ← remainder? before.toNat last.toNat
          padded? n (← sum? (UInt64.ofNat turn) 1).toNat

/-- An ordinal that starts over is a word again. -/
theorem sum?_turn (hpos : 0 < width) (hwidth : width < 20) :
    sum? ((ordinal - 1) % (UInt64.ofNat (Decimal.pow10 width) - 1)) 1 =
      some ((ordinal - 1) % (UInt64.ofNat (Decimal.pow10 width) - 1) + 1) := by
  have hten : 10 ^ 1 ≤ 10 ^ width := Nat.pow_le_pow_right (by decide) hpos
  have hpow : 10 ^ width ≤ 10 ^ 19 := Nat.pow_le_pow_right (by decide) (by omega)
  have hmod := Nat.mod_lt (ordinal - 1).toNat (show 10 ^ width - 1 > 0 by omega)
  have hone : (1 : UInt64).toNat = 1 := rfl
  refine sum?_eq_some ?_
  rw [UInt64.toNat_mod, toNat_lastOrdinal hwidth, hone]
  omega

/-- The words of a key stay in their range. -/
theorem checkedText?_eq (hone : 1 ≤ ordinal) (column : String) (maxLength : Option Nat) :
    checkedText? column ordinal maxLength = keyText? column ordinal maxLength := by
  have hfive : padded? 5 ordinal.toNat = some (padded 5 ordinal.toNat) := padded?_eq_some (by decide)
  unfold checkedText? keyText?
  simp only [hfive, Option.map_some, Option.bind_eq_bind, Option.bind_some]
  cases maxLength with
  | none => rfl
  | some n =>
    dsimp only
    split
    · rfl
    · rw [power?_eq]
      by_cases hn : n < 20
      · rw [if_pos hn, if_pos hn]
        by_cases hzero : n = 0
        · rw [if_pos hzero]
          exact if_pos ((limit_eq_one_iff hn).2 hzero)
        · have hpos : 0 < n := Nat.pos_of_ne_zero hzero
          dsimp only
          rw [if_neg hzero, if_neg (mt (limit_eq_one_iff hn).1 hzero), difference?_eq_some hone,
            difference?_eq_some (one_le_limit hn)]
          simp only [Option.bind_some, remainder?_ordinal hpos hn, UInt64.ofNat_toNat, sum?_turn hpos hn]
      · have hzero : n ≠ 0 := by omega
        rw [if_neg hn, if_neg hn, if_neg hzero]

end Guarded

/-- The key of the ordinal can be written: it fits behind the name of the column, or the ordinal alone has
no more digits than a number is written with. -/
def KeyWritable (column : String) (ordinal : UInt64) (maxLength : Option Nat) : Prop :=
  ∀ n, maxLength = some n → n ≤ widestNumber ∨ (column ++ "_" ++ padded 5 ordinal.toNat).length ≤ n

theorem keyWritable_iff : KeyWritable column ordinal maxLength ↔
    maxLength.all (fun n => n ≤ widestNumber || (column ++ "_" ++ padded 5 ordinal.toNat).length ≤ n) =
      true := by
  cases maxLength <;> simp [KeyWritable]

theorem le_length_padded (width n : Nat) : width ≤ (padded width n).length := by
  rw [← String.length_toList, toList_padded, List.length_append, List.length_replicate]
  omega

/-- An ordinal behind the name of the column has five digits or more, and a mark in front of it. -/
theorem le_length_behind (column : String) (n : Nat) :
    column.length + 6 ≤ (column ++ "_" ++ padded 5 n).length := by
  have hmark : "_".length = 1 := rfl
  have hdigits := le_length_padded 5 n
  rw [String.length_append, String.length_append, hmark]
  omega

theorem not_keyWritable (hlong : width < column.length + 6) (hwide : widestNumber < width) :
    ¬ KeyWritable column ordinal (some width) := by
  intro h
  have hleast := le_length_behind column ordinal.toNat
  rcases h width rfl with hwidth | hfits
  · exact absurd hwide (Nat.not_lt.2 hwidth)
  · omega

/-- An ordinal within the capacity is written by its key, in one of the two ways. -/
theorem writesOrdinal_of_le_capacity {t : ColumnType} (ht : t.family = .text) (hone : 1 ≤ ordinal)
    (hcap : ∀ capacity, t.capacity? = some capacity → ordinal.toNat ≤ capacity) :
    WritesOrdinal column t.maxLength ordinal.toNat (keyText column ordinal t.maxLength) := by
  have hpos : 1 ≤ ordinal.toNat := UInt64.le_iff_toNat_le.1 hone
  have hword := ordinal.toNat_lt
  have hself : UInt64.ofNat (ordinal.toNat - 1) + 1 = ordinal := by
    rw [← UInt64.toNat_inj, toNat_ordinal (by omega)]
    omega
  have hlimit : ∀ width, t.maxLength = some width → width < 20 → ordinal.toNat - 1 + 1 < 10 ^ width := by
    intro width hwidth hlt
    have hle := hcap (10 ^ width - 1) (by simp [ColumnType.capacity?, ht, hwidth, hlt, Decimal.pow10])
    omega
  have hwrites : WritesOrdinal column t.maxLength (ordinal.toNat - 1 + 1)
      (keyText column (UInt64.ofNat (ordinal.toNat - 1) + 1) t.maxLength) :=
    writesOrdinal_keyText (by omega) hlimit
  rwa [hself, Nat.sub_add_cancel hpos] at hwrites

/-- **Text keys fit, and they differ as far as the capacity goes.** The key of an ordinal is made without a
word out of its range and without a remainder by zero exactly if it can be written; it is then no longer
than a text of the type may be. No two ordinals within the capacity have the same key. -/
theorem text_keys_fit_and_differ {t : ColumnType} (ht : t.family = .text) (column : String) :
    (∀ ordinal : UInt64, 1 ≤ ordinal →
      (KeyWritable column ordinal t.maxLength →
        Guarded.checkedText? column ordinal t.maxLength = some (keyText column ordinal t.maxLength)) ∧
      (¬ KeyWritable column ordinal t.maxLength →
        Guarded.checkedText? column ordinal t.maxLength = none) ∧
      ∀ n, t.maxLength = some n → (keyText column ordinal t.maxLength).length ≤ n) ∧
    ∀ i j : UInt64, 1 ≤ i → 1 ≤ j → i ≠ j →
      (∀ capacity, t.capacity? = some capacity → i.toNat ≤ capacity ∧ j.toNat ≤ capacity) →
      keyText column i t.maxLength ≠ keyText column j t.maxLength := by
  constructor
  · intro ordinal hone
    have hchecked := (Guarded.checkedText?_eq hone column t.maxLength).trans
      (keyText?_eq column ordinal t.maxLength)
    refine ⟨fun h => ?_, fun h => ?_, fun n hn => ?_⟩
    · rw [hchecked, if_pos (keyWritable_iff.1 h)]
    · rw [hchecked, if_neg (mt keyWritable_iff.2 h)]
    · rw [hn]
      exact length_keyText_le column ordinal
  · intro i j hi hj hne hcap hsame
    have hfirst : WritesOrdinal column t.maxLength i.toNat (keyText column i t.maxLength) :=
      writesOrdinal_of_le_capacity ht hi fun c hc => (hcap c hc).1
    have hsecond : WritesOrdinal column t.maxLength j.toNat (keyText column j t.maxLength) :=
      writesOrdinal_of_le_capacity ht hj fun c hc => (hcap c hc).2
    rw [hsame] at hfirst
    exact hne (UInt64.toNat_inj.1 (hfirst.inj hsecond))

/-- The keys of a code of twelve characters: the last one behind the name, and the one after it. -/
theorem codes_around_ten_million_differ :
    Guarded.checkedText? "code" 9999999 (some 12) = some "code_9999999" ∧
      Guarded.checkedText? "code" 10000000 (some 12) = some "000010000000" ∧
      keyText "code" 9999999 (some 12) ≠ keyText "code" 10000000 (some 12) := by
  have hbehind : keyText "code" 9999999 (some 12) = "code_9999999" := by decide +kernel
  have halone : keyText "code" 10000000 (some 12) = "000010000000" := by decide +kernel
  have hwritable : ∀ ordinal, KeyWritable "code" ordinal (some 12) := by
    rintro ordinal n ⟨⟩
    exact .inl (by decide)
  let t : ColumnType := ⟨"varchar", .text, some 12, none⟩
  have ht : t.family = .text := rfl
  obtain ⟨hfit, hdiffer⟩ := text_keys_fit_and_differ ht "code"
  refine ⟨?_, ?_, hdiffer 9999999 10000000 (by decide) (by decide) (by decide) ?_⟩
  · rw [← hbehind]
    exact (hfit 9999999 (by decide)).1 (hwritable _)
  · rw [← halone]
    exact (hfit 10000000 (by decide)).1 (hwritable _)
  · rintro capacity hcap
    obtain rfl : 999999999999 = capacity := Option.some.inj hcap
    decide

/-- The first key of a column with a long name is not made where texts may have 65536 characters. -/
theorem wide_text_key_is_not_made :
    Guarded.checkedText? (String.ofList (List.replicate 65531 'a')) 1 (some 65536) = none := by
  have hlength : ∀ letters, (String.ofList (List.replicate letters 'a')).length = letters := by simp
  have hlong : 65536 < (String.ofList (List.replicate 65531 'a')).length + 6 := by
    rw [hlength]
    decide
  rw [Guarded.checkedText?_eq (by decide), keyText?_eq,
    if_neg (mt keyWritable_iff.2 (not_keyWritable hlong (by decide)))]

end SeedData
