/-
Keys past the capacity of a type. A capacity says how many keys there are before they repeat. For most
types the next key is the first one again (`ColumnType.keys_repeat_past_capacity_iff`), but a text type
counts the ordinals that its length can write alone: where the first key fits behind the name of the column,
the ordinal alone is a key of its own when counting starts over, and nothing has repeated yet.
-/
import SeedData.Proofs.TextKeys

namespace SeedData

variable {n i j : Nat} {ordinal : UInt64} {column : String}

theorem not_nodup_of_eq {α : Type} {f : Nat → α} (hij : i < j) (hj : j ≤ n) (h : f i = f j) :
    ¬ ((List.range (n + 1)).map f).Nodup := by
  rw [List.nodup_map_iff_inj_on List.nodup_range]
  intro hinj
  have hsame := hinj i (List.mem_range.2 (by omega)) j (List.mem_range.2 (by omega)) h
  omega

/-! ## Text keys past the last ordinal -/

theorem keyText_behind (h : (column ++ "_" ++ padded 5 ordinal.toNat).length ≤ n) :
    keyText column ordinal (some n) = column ++ "_" ++ padded 5 ordinal.toNat := if_pos h

theorem keyText_alone (hpos : 0 < n) (hn : n < 20)
    (hlong : n < (column ++ "_" ++ padded 5 ordinal.toNat).length) :
    keyText column ordinal (some n) =
      padded n ((ordinal - 1) % (UInt64.ofNat (Decimal.pow10 n) - 1) + 1).toNat := by
  unfold keyText
  dsimp only
  rw [if_neg (Nat.not_le.2 hlong), if_neg (Nat.ne_of_gt hpos), if_pos hn]

/-- The first key is the ordinal alone if the name is too long for it. -/
theorem keyText_first (hpos : 0 < n) (hn : n < 20) (hname : n < column.length + 6) :
    keyText column (UInt64.ofNat 0 + 1) (some n) = padded n 1 := by
  have hfirst : 0 + 1 < 10 ^ n := Nat.one_lt_pow (Nat.ne_of_gt hpos) (by decide)
  have hleast := le_length_behind column (UInt64.ofNat 0 + 1).toNat
  rw [keyText_alone hpos hn (by omega), ordinal_mod hn hfirst]
  rfl

/-- After the last ordinal that so many digits can write comes the first one. -/
theorem ordinal_restarts (hn : n < 20) :
    (UInt64.ofNat (10 ^ n - 1) + 1 - 1) % (UInt64.ofNat (Decimal.pow10 n) - 1) + 1 = 1 := by
  have hpow : 10 ^ n ≤ 10 ^ 19 := Nat.pow_le_pow_right (by decide) (by omega)
  have hself : UInt64.ofNat (10 ^ n - 1) = UInt64.ofNat (Decimal.pow10 n) - 1 := by
    rw [← UInt64.toNat_inj, toNat_lastOrdinal hn, toNat_row (by omega)]
  rw [UInt64.add_sub_cancel, hself, UInt64.mod_self]
  rfl

/-- The key after the last ordinal is the first ordinal alone, whatever the column is called. -/
theorem keyText_past (hpos : 0 < n) (hn : n < 20) (column : String) :
    keyText column (UInt64.ofNat (10 ^ n - 1) + 1) (some n) = padded n 1 := by
  have hpow : 10 ^ n ≤ 10 ^ 19 := Nat.pow_le_pow_right (by decide) (by omega)
  have hone : 1 ≤ 10 ^ n := Nat.one_le_pow _ _ (by decide)
  have hordinal : (UInt64.ofNat (10 ^ n - 1) + 1).toNat = 10 ^ n := by
    rw [toNat_ordinal (by omega)]
    omega
  have hdigits : n < (Nat.toDigits 10 (10 ^ n)).length := by
    rw [← Nat.not_le, Nat.length_toDigits_le_iff (by decide) hpos]
    exact Nat.lt_irrefl _
  have hlong : n < (column ++ "_" ++ padded 5 (UInt64.ofNat (10 ^ n - 1) + 1).toNat).length := by
    rw [hordinal, String.length_append, ← String.length_toList (s := padded 5 _), toList_padded,
      List.length_append]
    omega
  rw [keyText_alone hpos hn hlong, ordinal_restarts hn]
  rfl

/-- Where the first key fits behind the name, no key repeats with the one past the last ordinal. -/
theorem nodup_texts_of_fits (hn : n < 20) (hname : column.length + 6 ≤ n) :
    ((List.range (10 ^ n - 1 + 1)).map fun i => keyText column (UInt64.ofNat i + 1) (some n)).Nodup := by
  have hpos : 0 < n := by omega
  have hpow : 10 ^ n ≤ 10 ^ 19 := Nat.pow_le_pow_right (by decide) (by omega)
  have hwrites : ∀ i < 10 ^ n - 1,
      WritesOrdinal column (some n) (i + 1) (keyText column (UInt64.ofNat i + 1) (some n)) := by
    intro i hi
    refine writesOrdinal_keyText (by omega) ?_
    rintro width ⟨⟩ -
    omega
  have hpast : WritesOrdinal column (some n) 1 (padded n 1) := .inr ⟨n, rfl, rfl⟩
  -- The only key that the last one could repeat is the first, which stands behind the name.
  have hlast : ∀ i < 10 ^ n - 1,
      keyText column (UInt64.ofNat i + 1) (some n) ≠ keyText column (UInt64.ofNat (10 ^ n - 1) + 1) (some n) := by
    intro i hi hsame
    rw [keyText_past hpos hn] at hsame
    have hkey := hwrites i hi
    rw [hsame] at hkey
    obtain rfl : i = 0 := Nat.succ_inj.1 (hkey.inj hpast)
    have hone : (UInt64.ofNat 0 + 1).toNat = 1 := rfl
    have hfits : (column ++ "_" ++ padded 5 (UInt64.ofNat 0 + 1).toNat).length ≤ n := by
      rw [hone, String.length_append, String.length_append, length_padded (by decide) (by decide)]
      exact hname
    rw [keyText_behind hfits] at hsame
    have hmark : '_' ∈ (padded n 1).toList := by simp [← hsame]
    have hdigit := isDigit_of_mem_padded hmark
    simp [Char.isDigit] at hdigit
  rw [List.nodup_map_iff_inj_on List.nodup_range]
  intro i hi j hj hsame
  rw [List.mem_range] at hi hj
  rcases Nat.lt_or_eq_of_le (Nat.lt_succ_iff.1 hi) with hi | rfl
  · rcases Nat.lt_or_eq_of_le (Nat.lt_succ_iff.1 hj) with hj | rfl
    · have hfirst := hwrites i hi
      rw [hsame] at hfirst
      exact Nat.succ_inj.1 (hfirst.inj (hwrites j hj))
    · exact absurd hsame (hlast i hi)
  · rcases Nat.lt_or_eq_of_le (Nat.lt_succ_iff.1 hj) with hj | rfl
    · exact absurd hsame.symm (hlast j hj)
    · rfl

namespace ColumnType

variable {t : ColumnType} {base : Date} {capacity : Nat}

/-! ## Keys past the capacity -/

/-- When there are no new keys, the keys of the column start over: a text type has a length, too short for
the first key behind the name of the column, and an enumerated type has labels. -/
def StartsOver (t : ColumnType) (column : String) : Prop :=
  match t.family, t.maxLength with
  | .text, some n => 0 < n ∧ n < column.length + 6
  | .enumerated labels, _ => labels ≠ []
  | _, _ => True

theorem key_text (ht : t.family = .text) (row : UInt64) :
    t.key column row base = .text (keyText column (row + 1) t.maxLength) := by simp [key, ht]

/-- A list of labels comes again after its end, or after the last word if it is longer than words count. -/
theorem repeats_enumerated {labels : List String} (ht : t.family = .enumerated labels) (hne : labels ≠ []) :
    ∃ j, 0 < j ∧ j ≤ labels.length ∧ t.key column (UInt64.ofNat 0) base = t.key column (UInt64.ofNat j) base := by
  have hpos : 0 < labels.length := List.length_pos_of_ne_nil hne
  by_cases hword : labels.length < 2 ^ 64
  · refine ⟨labels.length, hpos, Nat.le_refl _, ?_⟩
    have hfirst : (UInt64.ofNat 0).toNat = 0 := rfl
    simp only [key, ht, hfirst, toNat_row hword, Nat.mod_self, Nat.zero_mod]
  · exact ⟨2 ^ 64, by decide, Nat.not_lt.1 hword, rfl⟩

theorem nodup_text_keys_iff (ht : t.family = .text) (hlength : t.maxLength = some n) (hn : n < 20) :
    ((List.range (10 ^ n - 1 + 1)).map fun i => t.key column (UInt64.ofNat i) base).Nodup ↔
      ¬ (0 < n ∧ n < column.length + 6) := by
  have hkeys : (fun i => t.key column (UInt64.ofNat i) base) =
      fun i => Value.text (keyText column (UInt64.ofNat i + 1) (some n)) :=
    funext fun i => by rw [key_text ht, hlength]
  rw [hkeys]
  constructor
  · rintro hnodup ⟨hpos, hname⟩
    have hlast : 0 < 10 ^ n - 1 := Nat.sub_pos_of_lt (Nat.one_lt_pow (Nat.ne_of_gt hpos) (by decide))
    refine not_nodup_of_eq hlast (Nat.le_refl _) ?_ hnodup
    rw [keyText_first hpos hn hname, keyText_past hpos hn]
  · intro hnot
    rcases Nat.eq_zero_or_pos n with rfl | hpos
    · exact List.nodup_singleton _
    · have hfits := nodup_texts_of_fits hn (Nat.not_lt.1 fun hname => hnot ⟨hpos, hname⟩)
      have htexts := hfits.map (f := Value.text) fun a b he => Value.text.inj he
      rwa [List.map_map] at htexts

/-- **Past the capacity of a type keys repeat, unless the first key of a text stands behind the name of the
column**: of the rows from zero to the capacity two have the same key exactly if the keys of the column
start over. -/
theorem keys_repeat_past_capacity_iff (h : t.capacity? = some capacity) (column : String) (base : Date) :
    ¬ ((List.range (capacity + 1)).map fun i => t.key column (UInt64.ofNat i) base).Nodup ↔
      t.StartsOver column := by
  unfold capacity? at h
  unfold StartsOver
  cases hfamily : t.family with
  | boolean =>
    rw [hfamily] at h
    obtain rfl := Option.some.inj h
    refine iff_of_true (not_nodup_of_eq (i := 0) (j := 2) (by decide) (by decide) ?_) trivial
    simp [key, hfamily]
  | time =>
    rw [hfamily] at h
    obtain rfl := Option.some.inj h
    refine iff_of_true (not_nodup_of_eq (i := 0) (j := secondsPerDay) (by decide) (Nat.le_refl _) ?_) trivial
    simp only [key, hfamily]
    rfl
  | enumerated labels =>
    rw [hfamily] at h
    obtain rfl := Option.some.inj h
    constructor
    · rintro hrepeat rfl
      exact hrepeat (List.nodup_singleton _)
    · intro hne
      obtain ⟨j, hpos, hj, hsame⟩ := repeats_enumerated hfamily hne
      exact not_nodup_of_eq hpos hj hsame
  | text =>
    rw [hfamily] at h
    obtain ⟨n, hlength, hn⟩ := Option.bind_eq_some_iff.1 h
    split at hn
    · rename_i hlt
      obtain rfl := Option.some.inj hn
      rw [hlength]
      exact (nodup_text_keys_iff hfamily hlength hlt).not.trans not_not
    · cases hn
  | integer | decimal | date | timestamp | uuid | json =>
    rw [hfamily] at h
    cases h

/-- The hundred keys of a code of two characters are not all different. -/
theorem hundred_codes_repeat :
    (ColumnType.resolve .empty "varchar(2)").capacity? = some 99 ∧
      ¬ ((List.range (99 + 1)).map fun i =>
        (ColumnType.resolve .empty "varchar(2)").key "code" (UInt64.ofNat i) (Date.mk 0)).Nodup := by
  have hresolve : ColumnType.resolve .empty "varchar(2)" = ⟨"varchar", .text, some 2, none⟩ := by
    decide +kernel
  have hcapacity : (ColumnType.mk "varchar" .text (some 2) none).capacity? = some 99 := by decide
  have hstarts : (ColumnType.mk "varchar" .text (some 2) none).StartsOver "code" := ⟨by decide, by decide⟩
  rw [hresolve]
  exact ⟨hcapacity, (keys_repeat_past_capacity_iff hcapacity "code" _).2 hstarts⟩

/-- Ten million keys of a column with a name of one letter are all different, although the capacity is one
less. -/
theorem keys_of_short_name_differ :
    (ColumnType.resolve .empty "varchar(7)").capacity? = some 9999999 ∧
      ((List.range (9999999 + 1)).map fun i =>
        (ColumnType.resolve .empty "varchar(7)").key "a" (UInt64.ofNat i) (Date.mk 0)).Nodup := by
  have hresolve : ColumnType.resolve .empty "varchar(7)" = ⟨"varchar", .text, some 7, none⟩ := by
    decide +kernel
  have hcapacity : (ColumnType.mk "varchar" .text (some 7) none).capacity? = some 9999999 := by decide
  rw [hresolve]
  exact ⟨hcapacity, (nodup_text_keys_iff (n := 7) rfl rfl (by decide)).2 (by decide)⟩

end ColumnType
end SeedData
