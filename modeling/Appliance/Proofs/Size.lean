import Appliance.Proofs.Size.Grammar
import Mathlib.Tactic.Common

/-! The text of a size is read as the same size. -/
namespace Appliance

theorem Text.isBlank_of_isDigit {c : Char} (h : c.isDigit = true) : isBlank c = false := by
  simp only [Char.isDigit, Bool.and_eq_true, decide_eq_true_eq] at h
  have low : 0x30 ≤ c.toNat := h.1
  have high : c.toNat ≤ 0x39 := h.2
  simp [isBlank]
  omega

namespace Size

theorem value_toDigits (n : Nat) : value (Nat.toDigits 10 n) = n := by
  rw [← ofDigitChars_eq_value, Nat.ofDigitChars_ten_toDigits]

theorem read_digits {k factor : Nat} {unit : List Char}
    (first : ∀ c ∈ unit.head?, c.isDigit = false)
    (last : ∀ c ∈ unit.getLast?, Text.isBlank c = false)
    (isUnit : Denotes (Text.trim unit) factor) (small : k * factor < limit) :
    Size.read (String.ofList (Nat.toDigits 10 k ++ unit)) = .ok ⟨.ofNat (k * factor)⟩ := by
  have isDigit : ∀ c ∈ Nat.toDigits 10 k, c.isDigit = true := fun c hc =>
    Nat.isDigit_of_mem_toDigits (by decide) (by decide) hc
  have filled : Nat.toDigits 10 k ≠ [] := Nat.toDigits_ne_nil
  have noMargins : Text.Trimmed (Nat.toDigits 10 k ++ unit) (Nat.toDigits 10 k ++ unit) := by
    refine .of_no_margins (fun c hc => ?_) (fun c hc => ?_)
    · obtain ⟨d, more, digits⟩ := List.exists_cons_of_ne_nil filled
      rw [digits] at hc
      obtain rfl : d = c := by simpa using hc
      exact Text.isBlank_of_isDigit (isDigit d (digits ▸ List.mem_cons_self))
    · rw [List.getLast?_append] at hc
      cases ending : unit.getLast? with
      | none =>
        rw [ending] at hc
        exact Text.isBlank_of_isDigit (isDigit c (List.mem_of_mem_getLast? hc))
      | some d =>
        rw [ending] at hc
        obtain rfl : d = c := by simpa using hc
        exact last d ending
  have parts : Parts (String.ofList (Nat.toDigits 10 k ++ unit)).toList (Nat.toDigits 10 k ++ unit)
      (Nat.toDigits 10 k) (Text.trim unit) :=
    ⟨String.toList_ofList ▸ noMargins, isDigit, unit, rfl, first, Text.trimmed_trim unit⟩
  refine read_eq_of_means parts (.size factor filled isUnit ?_)
  rw [value_toDigits]
  exact UInt64.toNat_ofNat_of_lt' small

theorem denotes_of_mem_units {unit : String × Nat} (h : unit ∈ units) :
    Denotes (Text.trim (' ' :: unit.1.toList)) unit.2 ∧
      ∀ c ∈ (' ' :: unit.1.toList).getLast?, Text.isBlank c = false := by
  simp only [units, List.mem_cons, List.not_mem_nil, or_false] at h
  have lastOne : Text.isBlank 'B' = false := by decide
  rcases h with rfl | rfl | rfl | rfl
  all_goals exact ⟨by decide, by simpa using lastOne⟩

theorem read_repr (size : Size) : Size.read (Nat.repr size.bytes.toNat) = .ok size := by
  have bound : size.bytes.toNat < limit := size.bytes.toNat_lt
  have written : Nat.repr size.bytes.toNat =
      String.ofList (Nat.toDigits 10 size.bytes.toNat ++ []) := by
    simp [← String.toList_inj]
  have plain : Denotes (Text.trim []) 1 := by decide
  rw [written, read_digits (by simp) (by simp) plain (by rwa [Nat.mul_one]), Nat.mul_one,
    UInt64.ofNat_toNat]

theorem read_text (size : Size) : Size.read size.text = .ok size := by
  have bound : size.bytes.toNat < limit := size.bytes.toNat_lt
  unfold text
  dsimp only
  split
  · next name factor found =>
    have mem : (name, factor) ∈ units := List.mem_of_find?_eq_some found
    have divides : size.bytes.toNat % factor = 0 := by
      have holds := List.find?_some found
      simp only [Bool.and_eq_true, beq_iff_eq] at holds
      exact holds.2
    have product : size.bytes.toNat / factor * factor = size.bytes.toNat :=
      Nat.div_mul_cancel (Nat.dvd_of_mod_eq_zero divides)
    have ⟨isUnit, last⟩ := denotes_of_mem_units mem
    have written : Nat.repr (size.bytes.toNat / factor) ++ " " ++ name =
        String.ofList (Nat.toDigits 10 (size.bytes.toNat / factor) ++ ' ' :: name.toList) := by
      simp [← String.toList_inj]
    rw [written, read_digits (by simp) last isUnit (by rwa [product]), product, UInt64.ofNat_toNat]
  · exact size.read_repr

end Size
end Appliance
