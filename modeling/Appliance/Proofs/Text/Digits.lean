import Appliance.Text.Hex
import Mathlib.Data.Nat.Digits.Defs

/-! Digits of natural numbers. In base ten only zero itself starts with a zero; those of base
sixteen are read as what they stand for, and characters by their numbers. -/
namespace Appliance.Text

theorem ne_of_isDigit {c d : Char} (isDigit : c.isDigit = true) (other : d.isDigit = false) :
    c ≠ d := by
  rintro rfl
  simp [other] at isDigit

theorem length_repr (n : Nat) : (Nat.repr n).length = (Nat.toDigits 10 n).length := by
  rw [← String.length_toList, Nat.toList_repr]

theorem head?_toDigits_ne {n : Nat} (positive : 0 < n) : (Nat.toDigits 10 n).head? ≠ some '0' := by
  induction n using Nat.strongRecOn with
  | ind n ih =>
    rcases Nat.lt_or_ge n 10 with small | large
    · rw [Nat.toDigits_of_lt_base small]
      simpa using Nat.ne_of_gt positive
    · have fewer := ih (n / 10) (by omega) (by omega)
      rw [Nat.toDigits_of_base_le (by decide) large, List.head?_append]
      cases first : (Nat.toDigits 10 (n / 10)).head? with
      | none => exact absurd (List.head?_eq_none_iff.1 first) Nat.toDigits_ne_nil
      | some c => simpa [first] using fewer

theorem exists_toDigits_eq_cons (n : Nat) :
    ∃ d more, Nat.toDigits 10 n = d :: more ∧ d.isDigit = true ∧ (d = '0' → more = []) := by
  cases digits : Nat.toDigits 10 n with
  | nil => exact absurd digits Nat.toDigits_ne_nil
  | cons d more =>
    have isDigit : d.isDigit = true :=
      Nat.isDigit_of_mem_toDigits (by decide) (by decide) (digits ▸ List.mem_cons_self)
    refine ⟨d, more, rfl, isDigit, fun zero => ?_⟩
    rcases Nat.eq_zero_or_pos n with rfl | positive
    · exact (List.cons.inj digits).2.symm
    · exact absurd (by rw [digits, zero]; rfl) (head?_toDigits_ne positive)

theorem toDigits_mul_pow {n : Nat} (positive : 0 < n) (k : Nat) :
    Nat.toDigits 10 (n * 10 ^ k) = Nat.toDigits 10 n ++ List.replicate k '0' := by
  induction k with
  | zero => rw [Nat.pow_zero, Nat.mul_one, List.replicate_zero, List.append_nil]
  | succ k ih =>
    have shift : n * 10 ^ (k + 1) = 10 * (n * 10 ^ k) := by rw [Nat.pow_succ', Nat.mul_left_comm]
    have some : 0 < n * 10 ^ k := Nat.mul_pos positive (Nat.pow_pos (by decide))
    have long : 10 ≤ 10 * (n * 10 ^ k) := Nat.le_mul_of_pos_right 10 some
    rw [shift, Nat.toDigits_of_base_le (by decide) long, Nat.mul_div_cancel_left _ (by decide),
      Nat.mul_mod_right, ih, List.append_assoc, List.replicate_succ']
    rfl

theorem hexValue?_hexDigit (n : Nat) : hexValue? (hexDigit n) = some (n % 16) := by
  have digits : ∀ m < 16, hexValue? (Nat.digitChar m) = some m := by decide
  exact digits _ (Nat.mod_lt n (by decide))

theorem hexValue?_toUpper_hexDigit (n : Nat) : hexValue? (hexDigit n).toUpper = some (n % 16) := by
  have digits : ∀ m < 16, hexValue? (Nat.digitChar m).toUpper = some m := by decide
  exact digits _ (Nat.mod_lt n (by decide))

theorem character?_toNat (c : Char) : character? c.toNat = some c := by
  have valid : c.toNat.isValidChar := c.valid
  rw [character?, dif_pos valid]
  rfl

end Appliance.Text
