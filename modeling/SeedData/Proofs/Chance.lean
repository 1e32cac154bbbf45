/-
What a random choice may come to, whatever the keystream (`Draw.Always`). A number
drawn below `n` is below `n` (`always_below`): the second draw is never carried
into the last number of the range. A chance of zero or one is certain (`always_chance`).
-/
import SeedData.Random.Draw

namespace SeedData.Draw

variable {α β : Type} {d : Draw α} {P Q : α → Prop} {R : β → Prop}

@[simp] theorem rely_eq (holds : Bool) : (rely holds : Draw Unit) = pure () := rfl

/-- The result satisfies `P` whatever the keystream. -/
def Always (d : Draw α) (P : α → Prop) : Prop := ∀ s, P (d.run s).1

theorem Always.mono (h : Always d P) (hPQ : ∀ a, P a → Q a) : Always d Q := fun s => hPQ _ (h s)

theorem Always.pure {a : α} (h : P a) : Always (Pure.pure a) P := fun _ => h

theorem Always.bind {f : α → Draw β} (h : Always d P) (hf : ∀ a, P a → Always (f a) R) :
    Always (d >>= f) R := fun s => hf _ (h s) (d.run s).2

theorem always_true (d : Draw α) : Always d fun _ => True := fun _ => trivial

/-- What a choice comes to, it comes to from some keystream. -/
theorem always_outcome (d : Draw α) : Always d fun a => ∃ s, a = (d.run s).1 := fun s => ⟨s, rfl⟩

/-- Scaling a number below `size` to a number below `n`, and what the second draw can
add to it. -/
theorem scaled_lt {size n x y : Nat} (hn : 0 < n) (hx : x < size) (hy : y < size)
    (hcarry : size ≤ x * n % size + y * n / size) : x * n / size + 1 < n := by
  obtain ⟨m, rfl⟩ : ∃ m, n = m + 1 := ⟨n - 1, by omega⟩
  obtain ⟨k, rfl⟩ : ∃ k, size = k + 1 := ⟨size - 1, by omega⟩
  have hmore : y * (m + 1) / (k + 1) < m + 1 := by
    rw [Nat.div_lt_iff_lt_mul (Nat.succ_pos k), Nat.mul_comm (m + 1)]
    exact Nat.mul_lt_mul_of_pos_right hy (Nat.succ_pos m)
  have hdiv := Nat.div_add_mod (x * (m + 1)) (k + 1)
  have hle : x * (m + 1) ≤ k * (m + 1) := Nat.mul_le_mul_right _ (by omega)
  generalize hq : x * (m + 1) / (k + 1) = q at *
  generalize hr : x * (m + 1) % (k + 1) = r at *
  refine Nat.lt_of_not_le fun hmq => ?_
  -- At the last number of the range the part cut off is too small for a carry.
  have hlast : (k + 1) * m ≤ (k + 1) * q := Nat.mul_le_mul_left _ (by omega)
  have hexpand : (k + 1) * m = k * m + m := Nat.succ_mul k m
  have hexpand' : k * (m + 1) = k * m + k := Nat.mul_succ k m
  omega

theorem always_scaled {size n : Nat} {draw : Draw Nat} (hn : 0 < n) (hdraw : Always draw (· < size)) :
    Always (scaled size draw n) (· < n) := by
  refine Always.bind hdraw fun x hx => ?_
  have hhigh : x * n / size < n := by
    rw [Nat.div_lt_iff_lt_mul (by omega), Nat.mul_comm n]
    exact Nat.mul_lt_mul_of_pos_right hx hn
  dsimp only
  split
  · refine Always.bind hdraw fun y hy => ?_
    refine Always.pure ?_
    split
    · rename_i hcarry
      exact scaled_lt hn hx hy hcarry
    · exact hhigh
  · exact Always.pure hhigh

/-- A number drawn below `n` is below `n`. -/
theorem always_below {n : Nat} (hn : 0 < n) : Always (below n) (· < n) := by
  refine Always.bind (always_true (rely _)) fun _ _ => always_scaled hn ?_
  refine Always.bind (always_true word) fun w _ => ?_
  exact Always.pure w.toNat_lt

theorem always_belowLong {n : Nat} (hn : 0 < n) : Always (belowLong n) (· < n) := by
  refine Always.bind (always_true (rely _)) fun _ _ => always_scaled hn ?_
  refine Always.bind (always_true longWord) fun w _ => ?_
  exact Always.pure w.toNat_lt

/-! ## Chances of zero and one -/

/-- What is equal to zero is a zero, with either sign. -/
theorem unpack_of_beq_zero {p : Float} (h : (p == 0.0) = true) :
    ∃ sign, p.toModel.unpack = .zero sign := by
  have hbits : (0.0 : Float).toModel.toBits = 0 := by decide +kernel
  have hzero : (0.0 : Float).toModel.unpack = .zero .positive := by
    rw [Float.Model.unpack, hbits]
    rfl
  have hcompare : p.toModel.unpack.compare (0.0 : Float).toModel.unpack = some .eq := beq_iff_eq.1 h
  rw [hzero] at hcompare
  cases hp : p.toModel.unpack with
  | zero sign => exact ⟨sign, rfl⟩
  | notANumber =>
    rw [hp] at hcompare
    cases hcompare
  | infinity sign | finite sign m e hm =>
    rw [hp] at hcompare
    cases sign <;> cases hcompare

/-- No word is below a chance of zero. -/
theorem toUInt64_of_beq_zero {p : Float} (h : (p == 0.0) = true) :
    (p * 18446744073709551616.0).toUInt64 = 0 := by
  obtain ⟨sign, hp⟩ := unpack_of_beq_zero h
  show (Float.Model.pack (Float.Model.UnpackedFloat.mul .binary64 p.toModel.unpack
    (18446744073709551616.0 : Float).toModel.unpack)).toUInt64 = 0
  rw [hp]
  cases sign <;> decide +kernel

theorem beq_one_of_beq_zero {p : Float} (h : (p == 0.0) = true) : (p == 1.0) = false := by
  obtain ⟨sign, hp⟩ := unpack_of_beq_zero h
  show p.toModel.unpack.beq (1.0 : Float).toModel.unpack = false
  rw [hp]
  cases sign <;> decide +kernel

/-- A chance of zero is never taken, and one of one always. -/
theorem always_chance (p : Float) : Always (chance p) fun taken =>
    (taken = true → (p == 0.0) = false) ∧ (taken = false → (p == 1.0) = false) := by
  unfold chance
  refine Always.bind (always_true (rely _)) fun _ _ => ?_
  split
  · rename_i hone
    refine Always.pure ⟨fun _ => Bool.eq_false_iff.2 fun hzero => ?_, fun h => absurd h (by decide)⟩
    rw [beq_one_of_beq_zero hzero] at hone
    cases hone
  · rename_i hone
    refine Always.bind (always_true longWord) fun w _ => Always.pure ⟨fun htaken => ?_, fun _ => ?_⟩
    · refine Bool.eq_false_iff.2 fun hzero => ?_
      rw [toUInt64_of_beq_zero hzero] at htaken
      exact absurd (of_decide_eq_true htaken) (by simp)
    · exact Bool.eq_false_iff.2 hone

end SeedData.Draw
