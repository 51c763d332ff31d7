import Appliance.Decimal.Shortest
import Mathlib.Data.Nat.Digits.Defs
import Mathlib.Tactic.SplitIfs

/-! Natural numbers as floating-point numbers. The large ones that round to a number with a full
mantissa reach half of its last bit up and down, or a quarter down from the least full one, below
which the bits are half as far apart. -/
namespace Appliance.Binary64

/-- Is the natural number nearest to a quotient, and even if another one is as near? -/
structure Nearest (num den m : Nat) : Prop where
  low : 2 * (m * den) ≤ 2 * num + den
  high : 2 * num ≤ 2 * (m * den) + den
  inside : m % 2 = 1 → 2 * (m * den) < 2 * num + den ∧ 2 * num < 2 * (m * den) + den

/-- How far down the numbers reach that round to a full mantissa, in quarters of its last bit. -/
def reach (mantissa : Nat) : Nat := if mantissa = leastFull then 1 else 2

structure Rounds (mantissa exponent n : Nat) : Prop where
  low : (4 * mantissa - reach mantissa) * 2 ^ exponent ≤ 4 * n
  high : 4 * n ≤ (4 * mantissa + 2) * 2 ^ exponent
  inside : mantissa % 2 = 1 → (4 * mantissa - reach mantissa) * 2 ^ exponent < 4 * n ∧
    4 * n < (4 * mantissa + 2) * 2 ^ exponent

structure Full (mantissa : Nat) : Prop where
  least : leastFull ≤ mantissa
  most : mantissa < 2 * leastFull

section Quotients

variable {num den : Nat} (positive : 0 < den)
include positive

theorem nearest_roundHalfEven : Nearest num den (roundHalfEven num den) := by
  have division := Nat.div_add_mod' num den
  have less := Nat.mod_lt num positive
  have next : (num / den + 1) * den = num / den * den + den := Nat.succ_mul _ _
  unfold roundHalfEven
  dsimp only
  split_ifs with down
  · exact ⟨by omega, by omega, by omega⟩
  · exact ⟨by omega, by omega, by omega⟩

theorem Nearest.roundHalfEven_eq {m : Nat} (nearest : Nearest num den m) :
    roundHalfEven num den = m := by
  have division := Nat.div_add_mod' num den
  have less := Nat.mod_lt num positive
  obtain ⟨low, high, inside⟩ := nearest
  have least : num / den ≤ m := by
    by_contra below
    have bound : (m + 1) * den ≤ num / den * den :=
      Nat.mul_le_mul_right den (Nat.lt_of_not_le below)
    rw [Nat.succ_mul] at bound
    omega
  have most : m ≤ num / den + 1 := by
    by_contra above
    have bound : (num / den + 2) * den ≤ m * den :=
      Nat.mul_le_mul_right den (Nat.lt_of_not_le above)
    rw [Nat.add_mul] at bound
    omega
  unfold roundHalfEven
  dsimp only
  rcases Nat.eq_or_lt_of_le least with rfl | more
  · rw [if_pos (by omega)]
  · obtain rfl : m = num / den + 1 := by omega
    have next : (num / den + 1) * den = num / den * den + den := Nat.succ_mul _ _
    have up : ¬(2 * (num % den) < den ∨ 2 * (num % den) = den ∧ num / den % 2 = 0) := by omega
    rw [if_neg up]

end Quotients

theorem power_natCast (base k : Nat) : power base k = (base ^ k, 1) := by
  rw [power, if_pos (Int.natCast_nonneg k), Int.toNat_natCast]
  rfl

theorem mantissaAt_natCast (n k : Nat) : mantissaAt n 1 k = roundHalfEven n (2 ^ k) := by
  rw [mantissaAt, power_natCast]
  simp only [Nat.mul_one, Nat.one_mul]

theorem reach_cases (mantissa : Nat) : mantissa = leastFull ∧ reach mantissa = 1 ∨
    mantissa ≠ leastFull ∧ reach mantissa = 2 := by
  unfold reach
  split_ifs with least
  · exact .inl ⟨least, rfl⟩
  · exact .inr ⟨least, rfl⟩

theorem length_repr_le {n bits k : Nat} (positive : 0 < k) (bound : n < 2 ^ bits)
    (room : bits ≤ 3 * k) : (Nat.repr n).length ≤ k := by
  refine Nat.repr_length n k positive ?_
  calc n < 2 ^ bits := bound
    _ ≤ 2 ^ (3 * k) := Nat.pow_le_pow_right (by decide) room
    _ = (2 ^ 3) ^ k := Nat.pow_mul 2 3 k
    _ ≤ 10 ^ k := Nat.pow_le_pow_left (by decide) k

theorem ofDecimal_eq_ofRatio {n : Nat} (some : n ≠ 0) (short : (Nat.repr n).length ≤ 400) :
    ofDecimal false n 0 = ofRatio false n 1 := by
  have within : ¬(n = 0 ∨ (Nat.repr n).length + (0 : Int) < -400) := by omega
  have finite : ¬400 < (Nat.repr n).length + (0 : Int) := by omega
  have scale : power 10 0 = (1, 1) := rfl
  rw [ofDecimal]
  simp only [if_neg within, if_neg finite, scale, Nat.mul_one]

theorem leastFull_eq : leastFull = 0x10000000000000 := rfl

theorem low_eq (mantissa exponent : Nat) : (4 * mantissa - reach mantissa) * 2 ^ exponent =
    4 * (mantissa * 2 ^ exponent) - reach mantissa * 2 ^ exponent := by
  rw [Nat.sub_mul, Nat.mul_assoc]

theorem high_eq (mantissa exponent : Nat) :
    (4 * mantissa + 2) * 2 ^ exponent = 4 * (mantissa * 2 ^ exponent) + 2 * 2 ^ exponent := by
  rw [Nat.add_mul, Nat.mul_assoc]

section Naturals

variable {mantissa exponent n : Nat}

theorem ofRatio_natCast {k : Nat} (least : 2 ^ (52 + k) ≤ n) (most : n < 2 ^ (53 + k)) :
    ofRatio false n 1 =
      let rounded := roundHalfEven n (2 ^ k)
      let (mantissa, exponent) : Nat × Int :=
        if rounded = 2 * leastFull then (leastFull, k + 1) else (rounded, k)
      if maxExponent < exponent then infinite false else finite false mantissa exponent := by
  have positive : n ≠ 0 := by
    have := Nat.two_pow_pos (52 + k)
    omega
  have log : n.log2 = 52 + k := (Nat.log2_eq_iff positive).2 ⟨least, by rwa [Nat.add_right_comm]⟩
  have guess : (n.log2 : Int) - (Nat.log2 1 : Nat) - (precision - 1) = k := by
    rw [log, show Nat.log2 1 = 0 by decide, precision]
    omega
  have full : ¬n * 1 < leastFull * (1 * 2 ^ k) := by
    have split : 2 ^ (52 + k) = leastFull * 2 ^ k := Nat.pow_add 2 52 k
    rw [Nat.mul_one, Nat.one_mul, ← split]
    exact Nat.not_lt.2 least
  have exponent : max (k : Int) minExponent = k := by
    rw [minExponent]
    omega
  rw [ofRatio, guess, power_natCast]
  simp only [if_neg full, exponent, mantissaAt_natCast]

/-- A natural number is read as the number with a full mantissa that it rounds to. -/
theorem Rounds.ofRatio_eq (full : Full mantissa) (positive : 0 < exponent) (small : exponent ≤ 971)
    (rounds : Rounds mantissa exponent n) :
    ofRatio false n 1 = finite false mantissa exponent := by
  obtain ⟨least, most⟩ := full
  obtain ⟨low, high, inside⟩ := rounds
  have bits := reach_cases mantissa
  have fits : ¬maxExponent < (exponent : Int) := by
    rw [maxExponent]
    omega
  have some : 0 < 2 ^ exponent := Nat.two_pow_pos exponent
  have up : (mantissa + 1) * 2 ^ exponent ≤ 2 * leastFull * 2 ^ exponent :=
    Nat.mul_le_mul_right _ most
  have bound : 2 ^ (52 + exponent) = leastFull * 2 ^ exponent := Nat.pow_add 2 52 exponent
  have twice : 2 ^ (53 + exponent) = 2 * leastFull * 2 ^ exponent := Nat.pow_add 2 53 exponent
  rw [high_eq] at high inside
  rw [low_eq] at low inside
  rw [Nat.succ_mul] at up
  simp only [leastFull_eq] at least most bits up bound twice
  by_cases large : 2 ^ (52 + exponent) ≤ n
  · have nearest : Nearest n (2 ^ exponent) mantissa := by
      rcases bits with ⟨rfl, one⟩ | ⟨-, two⟩
      · rw [one] at low inside
        exact ⟨by omega, by omega, by omega⟩
      · rw [two] at low inside
        exact ⟨by omega, by omega, by omega⟩
    have notCarried : mantissa ≠ 2 * leastFull := Nat.ne_of_lt most
    rw [ofRatio_natCast large (by omega), nearest.roundHalfEven_eq some]
    simp only [if_neg notCarried, if_neg fits]
  · -- Below the least full mantissa the bits are half as far apart, and the mantissa is carried.
    obtain ⟨rfl, one⟩ : mantissa = 0x10000000000000 ∧ reach mantissa = 1 := by
      refine bits.resolve_right fun ⟨other, two⟩ => ?_
      have more : (0x10000000000000 + 1) * 2 ^ exponent ≤ mantissa * 2 ^ exponent :=
        Nat.mul_le_mul_right _ (by omega)
      rw [two] at low
      omega
    obtain ⟨k, rfl⟩ : ∃ k, exponent = k + 1 := ⟨exponent - 1, by omega⟩
    have half : 2 ^ (k + 1) = 2 * 2 ^ k := Nat.pow_succ'
    have lower : 2 ^ (52 + k) = 0x10000000000000 * 2 ^ k := Nat.pow_add 2 52 k
    have upper : 2 ^ (53 + k) = 2 * 0x10000000000000 * 2 ^ k := Nat.pow_add 2 53 k
    have nearest : Nearest n (2 ^ k) (2 * leastFull) := by
      rw [one, half] at low
      exact ⟨by rw [leastFull_eq]; omega, by rw [leastFull_eq]; omega,
        fun odd => absurd odd (by decide)⟩
    have least : 2 ^ (52 + k) ≤ n := by
      rw [one] at low
      omega
    rw [ofRatio_natCast least (by omega), nearest.roundHalfEven_eq (Nat.two_pow_pos k)]
    simp only [if_true]
    exact if_neg fits

theorem Rounds.lt (full : Full mantissa) (rounds : Rounds mantissa exponent n) :
    n < 2 ^ (53 + exponent) := by
  have some := Nat.two_pow_pos exponent
  have high := rounds.high
  have up : (mantissa + 1) * 2 ^ exponent ≤ 2 * leastFull * 2 ^ exponent :=
    Nat.mul_le_mul_right _ full.most
  have twice : 2 ^ (53 + exponent) = 2 * leastFull * 2 ^ exponent := Nat.pow_add 2 53 exponent
  rw [high_eq] at high
  rw [Nat.succ_mul] at up
  omega

theorem Rounds.ne_zero (full : Full mantissa) (rounds : Rounds mantissa exponent n) : n ≠ 0 := by
  rintro rfl
  have low := rounds.low
  have least := full.least
  rw [leastFull_eq] at least
  have less : 0 < 4 * mantissa - reach mantissa := by
    rcases reach_cases mantissa with ⟨-, one⟩ | ⟨-, two⟩ <;> omega
  exact absurd (Nat.mul_pos less (Nat.two_pow_pos exponent)) (Nat.not_lt.2 low)

theorem Rounds.ofDecimal_eq (full : Full mantissa) (positive : 0 < exponent)
    (small : exponent ≤ 971) (rounds : Rounds mantissa exponent n) :
    ofDecimal false n 0 = finite false mantissa exponent := by
  have short : (Nat.repr n).length ≤ 400 :=
    length_repr_le (by decide) (rounds.lt full) (by omega)
  rw [ofDecimal_eq_ofRatio (rounds.ne_zero full) short]
  exact rounds.ofRatio_eq full positive small

theorem exists_rounds {k : Nat} (least : 2 ^ (53 + k) ≤ n) (most : n < 2 ^ (54 + k)) :
    ∃ mantissa exponent, Full mantissa ∧ 0 < exponent ∧ exponent ≤ k + 2 ∧
      Rounds mantissa exponent n := by
  have bits : 0 < 2 ^ (k + 1) := Nat.two_pow_pos _
  have half : 2 ^ (k + 1) = 2 * 2 ^ k := Nat.pow_succ'
  have lower : 2 ^ (53 + k) = 2 * leastFull * 2 ^ k := Nat.pow_add 2 53 k
  have upper : 2 ^ (54 + k) = 4 * leastFull * 2 ^ k := Nat.pow_add 2 54 k
  rw [leastFull_eq] at lower upper
  obtain ⟨low, high, inside⟩ := @nearest_roundHalfEven n _ bits
  generalize roundHalfEven n (2 ^ (k + 1)) = rounded at low high inside
  have atLeast : leastFull ≤ rounded := by
    by_contra fewer
    have bound : (rounded + 1) * 2 ^ (k + 1) ≤ leastFull * 2 ^ (k + 1) :=
      Nat.mul_le_mul_right _ (Nat.lt_of_not_le fewer)
    rw [Nat.succ_mul, leastFull_eq] at bound
    omega
  have atMost : rounded ≤ 2 * leastFull := by
    by_contra more
    have bound : (2 * leastFull + 1) * 2 ^ (k + 1) ≤ rounded * 2 ^ (k + 1) :=
      Nat.mul_le_mul_right _ (Nat.lt_of_not_le more)
    rw [Nat.succ_mul, leastFull_eq] at bound
    omega
  rcases Nat.eq_or_lt_of_le atMost with rfl | fits
  · -- The mantissa is carried.
    have twice : 2 ^ (k + 2) = 4 * 2 ^ k := by rw [Nat.pow_succ', half, ← Nat.mul_assoc]
    have one : reach leastFull = 1 := if_pos rfl
    refine ⟨leastFull, k + 2, ⟨Nat.le_refl _, by decide⟩, by omega, Nat.le_refl _, ?_, ?_,
      fun odd => absurd odd (by decide)⟩
    · rw [one, twice]
      rw [leastFull_eq] at low ⊢
      omega
    · rw [twice, leastFull_eq]
      omega
  · refine ⟨rounded, k + 1, ⟨atLeast, fits⟩, by omega, by omega, ?_⟩
    rcases reach_cases rounded with ⟨rfl, one⟩ | ⟨-, two⟩
    · refine ⟨?_, ?_, fun odd => absurd odd (by decide)⟩
      · rw [one, half, leastFull_eq]
        omega
      · rw [leastFull_eq] at high ⊢
        omega
    · have lower := low_eq rounded (k + 1)
      have upper := high_eq rounded (k + 1)
      rw [two] at lower
      rw [leastFull_eq] at atLeast
      have some : 2 ^ (k + 1) ≤ rounded * 2 ^ (k + 1) := Nat.le_mul_of_pos_left _ (by omega)
      refine ⟨?_, by omega, ?_⟩
      · rw [two]
        omega
      · rw [two]
        omega

end Naturals

section Small

theorem power_neg_natCast (base k : Nat) : power base (-(k : Int)) = (1, base ^ k) := by
  cases k with
  | zero => rfl
  | succ k =>
    rw [power, if_neg (by omega), Int.neg_neg, Int.toNat_natCast]
    rfl

theorem exists_ofDecimal_eq {n : Nat} (small : n < 2 ^ 53) :
    ∃ k : Nat, ofDecimal false n 0 = finite false (n * 2 ^ k) (-(k : Int)) := by
  rcases Nat.eq_zero_or_pos n with rfl | positive
  · exact ⟨1074, by rw [Nat.zero_mul]; rfl⟩
  · have some : n ≠ 0 := Nat.ne_of_gt positive
    obtain ⟨k, bits⟩ : ∃ k, n.log2 + k = 52 := by
      have log := (Nat.log2_lt some).2 small
      exact ⟨52 - n.log2, by omega⟩
    refine ⟨k, ?_⟩
    have guess : (n.log2 : Int) - (Nat.log2 1 : Nat) - (precision - 1) = -(k : Int) := by
      rw [show Nat.log2 1 = 0 by decide, precision]
      omega
    have least : 2 ^ 52 ≤ n * 2 ^ k := by
      calc 2 ^ 52 = 2 ^ n.log2 * 2 ^ k := by rw [← Nat.pow_add, bits]
        _ ≤ n * 2 ^ k := Nat.mul_le_mul_right _ (Nat.log2_self_le some)
    have most : n * 2 ^ k < 2 ^ 53 := by
      calc n * 2 ^ k < 2 ^ (n.log2 + 1) * 2 ^ k :=
            Nat.mul_lt_mul_of_pos_right Nat.lt_log2_self (Nat.two_pow_pos k)
        _ = 2 ^ 53 := by rw [← Nat.pow_add, Nat.add_right_comm, bits]
    -- Shifted by `k` the number fills the mantissa exactly, so nothing is rounded or carried.
    have exponent : max (-(k : Int)) minExponent = -(k : Int) := by
      rw [minExponent]
      omega
    have mantissa : mantissaAt n 1 (-(k : Int)) = n * 2 ^ k := by
      rw [mantissaAt, power_neg_natCast]
      simp [roundHalfEven, Nat.mod_one]
    have notCarried : n * 2 ^ k ≠ 2 * leastFull := Nat.ne_of_lt most
    have full : ¬n * 2 ^ k < leastFull := Nat.not_lt.2 least
    have inRange : ¬maxExponent < -(k : Int) := by
      rw [maxExponent]
      omega
    rw [ofDecimal_eq_ofRatio some (length_repr_le (by decide) small (by decide)), ofRatio, guess,
      power_neg_natCast]
    simp only [Nat.mul_one, if_neg full, exponent, mantissa, if_neg notCarried, if_neg inRange]

end Small

end Appliance.Binary64
