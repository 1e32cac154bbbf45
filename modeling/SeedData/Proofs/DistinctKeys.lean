/-
Keys differ from row to row: as long as a type has room for the rows
(`ColumnType.Holds`), no key comes twice, but for the labels of an enumerated type,
which come in their order, one a row, and so repeat where the type repeats a label
(`nodup_keys_iff`).

Each family writes the ordinal of a row in its own way, and each way can be read back.
-/
import Mathlib.Algebra.Order.Ring.Nat
import Mathlib.Data.List.Nodup
import SeedData.Column.Key

namespace SeedData

variable {m n width : Nat} {column : String} {maxLength : Option Nat} {s t : String}

/-! ## Numbers in text -/

theorem toList_padded (width n : Nat) : (padded width n).toList =
    List.replicate (width - (Nat.toDigits 10 n).length) '0' ++ Nat.toDigits 10 n := by
  simp [padded]

/-- Zeros in front do not change what number the digits write. -/
theorem padded_inj (h : padded width m = padded width n) : m = n := by
  have hread : ∀ k, Nat.ofDigitChars 10 (padded width k).toList 0 = k := by
    intro k
    rw [toList_padded, Nat.ofDigitChars_append, Nat.ofDigitChars_replicate_zero, Nat.mul_zero,
      Nat.ofDigitChars_ten_toDigits]
  rw [← hread m, h, hread n]

theorem isDigit_of_mem_padded {c : Char} (h : c ∈ (padded width n).toList) : c.isDigit = true := by
  rw [toList_padded, List.mem_append] at h
  rcases h with h | h
  · rw [List.eq_of_mem_replicate h]
    rfl
  · exact Nat.isDigit_of_mem_toDigits (by decide) (by decide) h

namespace Uuid

theorem hexDigit_inj : ∀ a < 16, ∀ b < 16, hexDigit a = hexDigit b → a = b := by decide

theorem hexDigit_ne_hyphen : ∀ a < 16, hexDigit a ≠ '-' := by decide

theorem mem_hexDigits {c : Char} (h : c ∈ hexDigits width n) : ∃ a < 16, c = hexDigit a := by
  induction width generalizing n with
  | zero => cases h
  | succ width ih =>
    rcases List.mem_append.1 h with h | h
    · exact ih h
    · exact ⟨n % 16, by omega, List.mem_singleton.1 h⟩

theorem hexDigits_inj (hm : m < 16 ^ width) (hn : n < 16 ^ width)
    (h : hexDigits width m = hexDigits width n) : m = n := by
  induction width generalizing m n with
  | zero => omega
  | succ width ih =>
    rw [Nat.pow_succ] at hm hn
    obtain ⟨hfront, hlast⟩ := List.append_inj' h rfl
    have hdiv : m / 16 = n / 16 := ih (by omega) (by omega) hfront
    have hmod : m % 16 = n % 16 := hexDigit_inj _ (by omega) _ (by omega) (List.singleton_inj.1 hlast)
    omega

/-- The text of an identifier without its hyphens is all its digits. -/
theorem filter_text (n : Nat) : (text n).toList.filter (· ≠ '-') = hexDigits 32 n := by
  have hself : (hexDigits 32 n).filter (· ≠ '-') = hexDigits 32 n := by
    rw [List.filter_eq_self]
    intro c hc
    obtain ⟨a, ha, rfl⟩ := mem_hexDigits hc
    simpa using hexDigit_ne_hyphen a ha
  simp only [text]
  generalize hexDigits 32 n = d at *
  -- The five groups of digits are put together from the last to the first.
  have hpiece : ∀ i j, (d.drop i).take j ++ d.drop (i + j) = d.drop i := by
    intro i j
    rw [← List.drop_drop, List.take_append_drop]
  have hwhole :
      d.take 8 ++ ((d.drop 8).take 4 ++ ((d.drop 12).take 4 ++ ((d.drop 16).take 4 ++ d.drop 20))) = d := by
    rw [hpiece 16 4, hpiece 12 4, hpiece 8 4, List.take_append_drop]
  have hfilter := congrArg (List.filter (· ≠ '-')) hwhole
  rw [hself] at hfilter
  simpa [List.filter_cons] using hfilter

theorem text_inj (hm : m < 16 ^ 32) (hn : n < 16 ^ 32) (h : text m = text n) : m = n := by
  refine hexDigits_inj hm hn ?_
  rw [← filter_text m, h, filter_text n]

end Uuid

theorem TimeOfDay.ofSeconds_inj (h : ofSeconds m = ofSeconds n) : m = n := by
  simp only [ofSeconds, TimeOfDay.mk.injEq] at h
  omega

theorem Json.compact_id_inj
    (h : (Json.obj [("id", .int m)]).compact = (Json.obj [("id", .int n)]).compact) : m = n := by
  simp only [compact, compactMembers, String.intercalate_singleton, String.append_right_inj,
    String.append_left_inj] at h
  have hdigits : padded 0 m = padded 0 n := by
    simpa [padded, Int.toString_eq_repr, Int.repr, Nat.repr] using h
  exact padded_inj hdigits

/-! ## Text keys -/

/-- How a text key writes an ordinal: after the name of the column, or in as many digits
as the text may have characters. -/
def WritesOrdinal (column : String) (maxLength : Option Nat) (ordinal : Nat) (s : String) : Prop :=
  s = column ++ "_" ++ padded 5 ordinal ∨ ∃ width, maxLength = some width ∧ s = padded width ordinal

/-- The two ways never meet, since an underscore is no digit. -/
theorem WritesOrdinal.inj (hs : WritesOrdinal column maxLength m s)
    (ht : WritesOrdinal column maxLength n s) : m = n := by
  have hmark : ∀ a b width, column ++ "_" ++ padded 5 a ≠ padded width b := by
    intro a b width he
    have hmem : '_' ∈ (padded width b).toList := by simp [← he]
    have hdigit := isDigit_of_mem_padded hmem
    simp [Char.isDigit] at hdigit
  rcases hs with rfl | ⟨width, hwidth, rfl⟩
  · rcases ht with ht | ⟨width, -, ht⟩
    · exact padded_inj (by simpa using ht)
    · exact absurd ht (hmark m n width)
  · rcases ht with ht | ⟨width', hwidth', ht⟩
    · exact absurd ht.symm (hmark n m width)
    · obtain rfl : width = width' := Option.some.inj (hwidth.symm.trans hwidth')
      exact padded_inj ht

/-! ## Keys -/

/-- Whether the type has room for so many rows, by its capacity. -/
def ColumnType.Holds (t : ColumnType) (rows : Nat) : Prop :=
  ∀ capacity, t.capacity? = some capacity → rows ≤ capacity

theorem toNat_row {i : Nat} (hi : i < 2 ^ 64) : (UInt64.ofNat i).toNat = i := UInt64.toNat_ofNat_of_lt' hi

/-- The ordinal of a row, counted in words. -/
theorem toNat_ordinal {i : Nat} (hi : i + 1 < 2 ^ 64) : (UInt64.ofNat i + 1).toNat = i + 1 := by
  simp [UInt64.toNat_add]
  omega

/-- A power of ten with fewer than twenty zeros is a word. -/
theorem toNat_limit (hwidth : width < 20) : (UInt64.ofNat (Decimal.pow10 width)).toNat = 10 ^ width := by
  have hpow : 10 ^ width ≤ 10 ^ 19 := Nat.pow_le_pow_right (by decide) (by omega)
  exact UInt64.toNat_ofNat_of_lt' (Nat.lt_of_le_of_lt hpow (by decide))

theorem one_le_limit (hwidth : width < 20) : (1 : UInt64) ≤ UInt64.ofNat (Decimal.pow10 width) := by
  rw [UInt64.le_iff_toNat_le, toNat_limit hwidth]
  exact Nat.one_le_pow _ _ (by decide)

/-- The last ordinal of so many digits. -/
theorem toNat_lastOrdinal (hwidth : width < 20) :
    (UInt64.ofNat (Decimal.pow10 width) - 1).toNat = 10 ^ width - 1 := by
  rw [UInt64.toNat_sub_of_le _ _ (one_le_limit hwidth), toNat_limit hwidth]
  rfl

/-- Counting starts over only after the last ordinal that the digits can write. -/
theorem ordinal_mod {i : Nat} (hwidth : width < 20) (hi : i + 1 < 10 ^ width) :
    (UInt64.ofNat i + 1 - 1) % (UInt64.ofNat (Decimal.pow10 width) - 1) + 1 = UInt64.ofNat i + 1 := by
  have hpow : 10 ^ width ≤ 10 ^ 19 := Nat.pow_le_pow_right (by decide) (by omega)
  have hrow : (UInt64.ofNat i).toNat = i := toNat_row (by omega)
  rw [UInt64.add_sub_cancel, UInt64.add_left_inj, ← UInt64.toNat_inj, UInt64.toNat_mod,
    toNat_lastOrdinal hwidth, hrow]
  exact Nat.mod_eq_of_lt (Nat.lt_sub_of_add_lt hi)

theorem writesOrdinal_keyText {i : Nat} (hi : i + 1 < 2 ^ 64)
    (hlimit : ∀ width, maxLength = some width → width < 20 → i + 1 < 10 ^ width) :
    WritesOrdinal column maxLength (i + 1) (keyText column (UInt64.ofNat i + 1) maxLength) := by
  unfold keyText
  rw [toNat_ordinal hi]
  cases maxLength with
  | none => exact .inl rfl
  | some width =>
    dsimp only
    split
    · exact .inl rfl
    · split
      · rename_i h0
        have hpos := hlimit width rfl (by omega)
        simp [h0] at hpos
      · refine .inr ⟨width, rfl, ?_⟩
        split
        · rename_i hwidth
          rw [ordinal_mod hwidth (hlimit width rfl hwidth), toNat_ordinal hi]
        · rfl

namespace ColumnType

variable {t : ColumnType} {base : Date} {i j : Nat}

theorem Holds.lt_pow (h : t.Holds n) (ht : t.family = .text) (hi : i < n) :
    ∀ width, t.maxLength = some width → width < 20 → i + 1 < 10 ^ width := by
  intro width hwidth hlt
  have hcap := h (10 ^ width - 1) (by simp [capacity?, ht, hwidth, hlt, Decimal.pow10])
  omega

/-- Different rows have different keys. -/
theorem Holds.key_inj (h : t.Holds n) (hn : n < 2 ^ 64) (hlabels : ∀ labels, t.family ≠ .enumerated labels)
    (hi : i < n) (hj : j < n)
    (heq : t.key column (UInt64.ofNat i) base = t.key column (UInt64.ofNat j) base) : i = j := by
  have hword : ∀ k < n, (UInt64.ofNat k).toNat = k := fun k hk => toNat_row (by omega)
  have hordinal : ∀ k < n, (UInt64.ofNat k + 1).toNat = k + 1 := fun k hk => toNat_ordinal (by omega)
  have hinj : UInt64.ofNat i = UInt64.ofNat j → i = j := fun he => by
    rw [← hword i hi, he, hword j hj]
  have hnumber : (UInt64.ofNat i + 1).toInt64 = (UInt64.ofNat j + 1).toInt64 → i = j := fun he => by
    have he' := congrArg Int64.toUInt64 he
    exact hinj (by simpa using he')
  have hday : base.addDays (UInt64.ofNat i).toInt64.toInt = base.addDays (UInt64.ofNat j).toInt64.toInt →
      i = j := fun he => by
    simp only [Date.addDays, Date.mk.injEq, Int.add_right_inj, Int64.toInt_inj] at he
    have he' := congrArg Int64.toUInt64 he
    exact hinj (by simpa using he')
  unfold key at heq
  dsimp only at heq
  cases hfamily : t.family with
  | integer | decimal =>
    rw [hfamily] at heq
    exact hnumber (Value.int.inj heq)
  | boolean =>
    rw [hfamily] at heq
    have hcap := h 2 (by simp [capacity?, hfamily])
    have hmod := Value.bool.inj heq
    rw [hword i hi, hword j hj, Bool.eq_iff_iff, beq_iff_eq, beq_iff_eq] at hmod
    omega
  | date =>
    rw [hfamily] at heq
    exact hday (Value.date.inj heq)
  | time =>
    rw [hfamily] at heq
    have hcap : n ≤ 86400 := h secondsPerDay (by simp [capacity?, hfamily])
    have hmod := TimeOfDay.ofSeconds_inj (Value.time.inj heq)
    rw [hword i hi, hword j hj, secondsPerDay] at hmod
    omega
  | timestamp =>
    rw [hfamily] at heq
    exact hday (Value.timestamp.inj heq).1
  | uuid =>
    rw [hfamily] at heq
    have hword := Value.uuid.inj heq
    rw [hordinal i hi, hordinal j hj] at hword
    have hsame : i + 1 = j + 1 := Uuid.text_inj (by omega) (by omega) hword
    omega
  | json =>
    rw [hfamily] at heq
    have htext := Json.compact_id_inj (Value.text.inj heq)
    rw [hordinal i hi, hordinal j hj] at htext
    omega
  | enumerated labels => exact absurd hfamily (hlabels labels)
  | text =>
    rw [hfamily] at heq
    have hwrites : ∀ k < n, WritesOrdinal column t.maxLength (k + 1)
        (keyText column (UInt64.ofNat k + 1) t.maxLength) := fun k hk =>
      writesOrdinal_keyText (by omega) (h.lt_pow hfamily hk)
    have hi' := hwrites i hi
    rw [Value.text.inj heq] at hi'
    have hsame := hi'.inj (hwrites j hj)
    omega

/-- The keys of an enumerated type that has a label for each row are its first labels. -/
theorem keys_enumerated {labels : List String} (hfamily : t.family = .enumerated labels)
    (hn : n ≤ labels.length) (hwords : n < 2 ^ 64) :
    (List.range n).map (fun i => t.key column (UInt64.ofNat i) base) = (labels.take n).map Value.text := by
  refine List.ext_getElem (by simp [hn]) fun i hi _ => ?_
  have hi : i < n := by simpa using hi
  have hlabel : i < labels.length := by omega
  simp only [key, hfamily, List.getElem_map, List.getElem_range, List.getElem_take,
    toNat_row (show i < 2 ^ 64 by omega), Nat.mod_eq_of_lt hlabel, List.getD_eq_getElem?_getD,
    List.getElem?_eq_getElem hlabel, Option.getD_some]

/-- Where a type has room for all rows, keys repeat only where labels do. -/
theorem nodup_keys_iff (h : t.Holds n) (hn : n < 2 ^ 64) :
    ((List.range n).map fun i => t.key column (UInt64.ofNat i) base).Nodup ↔
      ∀ labels, t.family = .enumerated labels → (labels.take n).Nodup := by
  by_cases hlabels : ∃ labels, t.family = .enumerated labels
  · obtain ⟨labels, hfamily⟩ := hlabels
    have hcap := h labels.length (by simp [capacity?, hfamily])
    rw [keys_enumerated hfamily hcap hn, List.nodup_map_iff fun a b he => Value.text.inj he]
    simp [hfamily]
  · have hnone : ∀ labels, t.family ≠ .enumerated labels := fun labels he => hlabels ⟨labels, he⟩
    rw [List.nodup_map_iff_inj_on List.nodup_range]
    simp only [List.mem_range, hnone, false_implies, implies_true, iff_true]
    exact fun i hi j hj he => h.key_inj hn hnone hi hj he

end ColumnType
end SeedData
