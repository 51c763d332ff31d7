import Appliance.Proofs.Decimal.Rounding
import Appliance.Proofs.Text.Digits

/-! The shortest decimals of large natural numbers. They are natural numbers too, and round to the
same floating-point number: on a grid of ones, of tens and so on the two points next to a number are
as far apart as the grid is wide, so one of them rounds to it where the grid is not too wide. -/
namespace Appliance.Binary64

variable {mantissa exponent : Nat}

theorem rounds_iff {n : Nat} : Rounds mantissa exponent n ↔
    if mantissa % 2 = 0 then
      (4 * mantissa - reach mantissa) * 2 ^ exponent ≤ 4 * n ∧
        4 * n ≤ (4 * mantissa + 2) * 2 ^ exponent
    else
      (4 * mantissa - reach mantissa) * 2 ^ exponent < 4 * n ∧
        4 * n < (4 * mantissa + 2) * 2 ^ exponent := by
  split_ifs with even
  · exact ⟨fun h => ⟨h.low, h.high⟩, fun h => ⟨h.1, h.2, fun odd => by omega⟩⟩
  · exact ⟨fun h => h.inside (by omega), fun h => ⟨h.1.le, h.2.le, fun _ => h⟩⟩

theorem Rounds.of_lt {n : Nat} (low : (4 * mantissa - reach mantissa) * 2 ^ exponent < 4 * n)
    (high : 4 * n < (4 * mantissa + 2) * 2 ^ exponent) : Rounds mantissa exponent n :=
  ⟨low.le, high.le, fun _ => ⟨low, high⟩⟩

instance (n : Nat) : Decidable (Rounds mantissa exponent n) := decidable_of_iff' _ rounds_iff

section Quarters

theorem exists_power_quarter (positive : 0 < exponent) :
    ∃ up down, power 2 ((exponent : Int) - 2) = (up, down) ∧ 0 < down ∧
      4 * up = 2 ^ exponent * down := by
  match exponent, positive with
  | 1, _ => exact ⟨1, 2, rfl, by decide, by decide⟩
  | k + 2, _ =>
    have same : ((k + 2 : Nat) : Int) - 2 = k := by omega
    refine ⟨2 ^ k, 1, by rw [same, power_natCast], by decide, ?_⟩
    rw [Nat.pow_add, Nat.mul_one, Nat.mul_comm]

variable {up down : Nat} (positive : 0 < down) (quarter : 4 * up = 2 ^ exponent * down)
include positive quarter

theorem mul_up_le_iff (a n : Nat) : a * up ≤ n * down ↔ a * 2 ^ exponent ≤ 4 * n := by
  calc a * up ≤ n * down
      ↔ 4 * (a * up) ≤ 4 * (n * down) := (Nat.mul_le_mul_left_iff (by decide)).symm
    _ ↔ a * 2 ^ exponent * down ≤ 4 * n * down := by
      rw [Nat.mul_left_comm, quarter, ← Nat.mul_assoc, ← Nat.mul_assoc]
    _ ↔ a * 2 ^ exponent ≤ 4 * n := Nat.mul_le_mul_right_iff positive

theorem le_mul_up_iff (a n : Nat) : n * down ≤ a * up ↔ 4 * n ≤ a * 2 ^ exponent := by
  calc n * down ≤ a * up
      ↔ 4 * (n * down) ≤ 4 * (a * up) := (Nat.mul_le_mul_left_iff (by decide)).symm
    _ ↔ 4 * n * down ≤ a * 2 ^ exponent * down := by
      rw [Nat.mul_left_comm 4 a, quarter, ← Nat.mul_assoc, ← Nat.mul_assoc]
    _ ↔ 4 * n ≤ a * 2 ^ exponent := Nat.mul_le_mul_right_iff positive

end Quarters

section Grids

variable (positive : 0 < exponent) {tie : Tie} {leading : Int} {places k : Nat}
  (grid : leading - ((places : Int) - 1) = k)
include positive grid

/-- A grid gives a point that rounds to the number, unless neither of those next to it does. -/
theorem onGrid_spec : ∃ below : Nat,
    below * 10 ^ k ≤ mantissa * 2 ^ exponent ∧ mantissa * 2 ^ exponent < (below + 1) * 10 ^ k ∧
    match onGrid tie mantissa exponent leading places with
    | some d => d.exponent = k ∧ Rounds mantissa exponent (d.digits * 10 ^ k)
    | none => ¬Rounds mantissa exponent (below * 10 ^ k) ∧
      ¬Rounds mantissa exponent ((below + 1) * 10 ^ k) := by
  obtain ⟨up, down, scale, some, quarter⟩ := exists_power_quarter positive
  have unit : 0 < 10 ^ k * down := Nat.mul_pos (Nat.pow_pos (by decide)) some
  have least : minExponent < (exponent : Int) := by
    rw [minExponent]
    omega
  have reaches (d : Nat) : (if mantissa % 2 = 0 then
        decide ((4 * mantissa - if mantissa = leastFull then 1 else 2) * up ≤
          d * (10 ^ k * down)) && decide (d * (10 ^ k * down) ≤ (4 * mantissa + 2) * up)
      else decide ((4 * mantissa - if mantissa = leastFull then 1 else 2) * up <
          d * (10 ^ k * down)) && decide (d * (10 ^ k * down) < (4 * mantissa + 2) * up)) =
      decide (Rounds mantissa exponent (d * 10 ^ k)) := by
    rw [Bool.eq_iff_iff, decide_eq_true_iff, rounds_iff, ← reach]
    simp only [← Nat.mul_assoc d, ← Nat.not_le, mul_up_le_iff some quarter,
      le_mul_up_iff some quarter]
    split_ifs <;> simp
  have value : 4 * (mantissa * 2 ^ exponent) = 4 * mantissa * 2 ^ exponent :=
    (Nat.mul_assoc 4 _ _).symm
  have lower : 4 * mantissa * up / (10 ^ k * down) * 10 ^ k ≤ mantissa * 2 ^ exponent := by
    refine Nat.le_of_mul_le_mul_left ?_ (show 0 < 4 by decide)
    rw [value, ← le_mul_up_iff some quarter, Nat.mul_assoc]
    exact Nat.div_mul_le_self _ _
  have upper : mantissa * 2 ^ exponent < (4 * mantissa * up / (10 ^ k * down) + 1) * 10 ^ k := by
    refine Nat.lt_of_mul_lt_mul_left (a := 4) ?_
    rw [value, ← Nat.not_le, ← le_mul_up_iff some quarter, Nat.mul_assoc, Nat.not_le]
    exact (Nat.lt_mul_div_succ _ unit).trans_eq (Nat.mul_comm _ _)
  refine ⟨_, lower, upper, ?_⟩
  simp only [onGrid, scale, grid, power_natCast, Nat.mul_one, least, and_true, reaches]
  split
  · next d found =>
    split at found
    · next low high =>
      cases found
      refine ⟨rfl, ?_⟩
      dsimp only
      split_ifs
      · exact of_decide_eq_true low
      · exact of_decide_eq_true high
    · next low _ =>
      cases found
      exact ⟨rfl, of_decide_eq_true low⟩
    · next high =>
      cases found
      exact ⟨rfl, of_decide_eq_true high⟩
    · cases found
  · next found =>
    split at found
    · cases found
    · cases found
    · cases found
    · next low high => exact ⟨of_decide_eq_false low, of_decide_eq_false high⟩

theorem isSome_onGrid (full : Full mantissa)
    (wide : 4 * 10 ^ k < (reach mantissa + 2) * 2 ^ exponent) :
    ∃ d, onGrid tie mantissa exponent leading places = some d := by
  obtain ⟨below, lower, upper, spec⟩ := @onGrid_spec mantissa _ positive tie _ _ _ grid
  cases found : onGrid tie mantissa exponent leading places with
  | some d => exact ⟨d, rfl⟩
  | none =>
    exfalso
    rw [found] at spec
    obtain ⟨low, high⟩ := spec
    have bits : 0 < 2 ^ exponent := Nat.two_pow_pos exponent
    have above : (below + 1) * 10 ^ k = below * 10 ^ k + 10 ^ k := Nat.succ_mul _ _
    have lowest := low_eq mantissa exponent
    have highest := high_eq mantissa exponent
    have least : reach mantissa * 2 ^ exponent ≤ 4 * (mantissa * 2 ^ exponent) := by
      have atLeast := full.least
      rw [leastFull_eq] at atLeast
      rw [← Nat.mul_assoc]
      refine Nat.mul_le_mul_right _ ?_
      rcases reach_cases mantissa with ⟨-, one⟩ | ⟨-, two⟩ <;> omega
    have down : 4 * (below * 10 ^ k) ≤ (4 * mantissa - reach mantissa) * 2 ^ exponent := by
      by_contra more
      exact low (.of_lt (Nat.lt_of_not_le more) (by omega))
    have up : (4 * mantissa + 2) * 2 ^ exponent ≤ 4 * ((below + 1) * 10 ^ k) := by
      by_contra fewer
      exact high (.of_lt (by omega) (Nat.lt_of_not_le fewer))
    rw [Nat.add_mul] at wide
    omega

end Grids

theorem exists_findSome?_range {α : Type} {f : Nat → Option α} {i n : Nat} (lt : i < n) {a : α}
    (found : f i = some a) : ∃ j ≤ i, ∃ b, f j = some b ∧ (List.range n).findSome? f = some b := by
  obtain ⟨m, rfl⟩ := Nat.exists_eq_add_of_le (Nat.succ_le_of_lt lt)
  rw [List.range_add, List.findSome?_append]
  cases first : (List.range (i + 1)).findSome? f with
  | none =>
    have absent := List.findSome?_eq_none_iff.1 first i (List.self_mem_range_succ)
    rw [found] at absent
    cases absent
  | some b =>
    obtain ⟨j, mem, here⟩ := List.exists_of_findSome?_eq_some first
    exact ⟨j, Nat.le_of_lt_succ (List.mem_range.1 mem), b, here, rfl⟩

theorem exists_leadingOf {n : Nat} (positive : 1 ≤ n) :
    ∃ leading : Nat, leadingOf n 1 = leading ∧ 10 ^ leading ≤ n := by
  have some : 0 < (Nat.toDigits 10 n).length := Nat.length_toDigits_pos
  refine ⟨(Nat.toDigits 10 n).length - 1, ?_, ?_⟩
  · rw [leadingOf, if_pos positive, Nat.div_one, Text.length_repr]
    omega
  · rcases Nat.eq_zero_or_pos ((Nat.toDigits 10 n).length - 1) with zero | more
    · rwa [zero]
    · refine Nat.le_of_not_lt fun less => ?_
      have short := (Nat.length_toDigits_le_iff (by decide) more).2 less
      omega

theorem strip_spec (steps : Nat) {d : Decimal} {k : Nat} (whole : d.exponent = k) :
    ∃ k' : Nat, (d.strip steps).exponent = k' ∧
      (d.strip steps).digits * 10 ^ k' = d.digits * 10 ^ k := by
  induction steps generalizing d k with
  | zero => exact ⟨k, whole, rfl⟩
  | succ steps ih =>
    rw [Decimal.strip]
    split_ifs with zero
    · obtain ⟨k', next, same⟩ := @ih ⟨d.digits / 10, d.exponent + 1⟩ (k + 1) (by simp [whole])
      refine ⟨k', next, same.trans ?_⟩
      rw [Nat.pow_succ', ← Nat.mul_assoc, Nat.div_mul_cancel (Nat.dvd_of_mod_eq_zero zero.2)]
    · exact ⟨k, whole, rfl⟩

/-- The shortest decimal of a large natural number has no places after the point, and rounds to the
number. -/
theorem exists_shortest (full : Full mantissa) (positive : 0 < exponent) (tie : Tie) :
    ∃ digits k : Nat, shortest tie mantissa exponent = ⟨digits, k⟩ ∧
      Rounds mantissa exponent (digits * 10 ^ k) := by
  have bits : 0 < 2 ^ exponent := Nat.two_pow_pos exponent
  have least := full.least
  have most := full.most
  rw [leastFull_eq] at least most
  have nonzero : 0 < mantissa := by omega
  obtain ⟨leading, first, digits⟩ := exists_leadingOf (Nat.mul_pos nonzero bits)
  -- The last grid to try: the ones, or the one of seventeen digits.
  obtain ⟨last, k, sum, within, wide⟩ : ∃ last k, last + k = leading ∧ last < 17 ∧
      4 * 10 ^ k < (reach mantissa + 2) * 2 ^ exponent := by
    rcases Nat.le_total leading 16 with short | long
    · refine ⟨leading, 0, rfl, by omega, ?_⟩
      have two : 2 ≤ 2 ^ exponent := Nat.le_self_pow (Nat.ne_of_gt positive) 2
      rcases reach_cases mantissa with ⟨-, bit⟩ | ⟨-, bit⟩ <;> rw [bit] <;> omega
    · refine ⟨16, leading - 16, by omega, by decide, ?_⟩
      have split : 10 ^ leading = 10 ^ 16 * 10 ^ (leading - 16) := by
        rw [← Nat.pow_add, Nat.add_sub_cancel' long]
      rw [split] at digits
      rcases reach_cases mantissa with ⟨same, bit⟩ | ⟨-, bit⟩
      · rw [same, leastFull_eq] at digits
        rw [bit]
        omega
      · have bound : mantissa * 2 ^ exponent ≤ (2 * 0x10000000000000 - 1) * 2 ^ exponent :=
          Nat.mul_le_mul_right _ (by omega)
        rw [bit]
        omega
  have grid (i : Nat) (le : i ≤ last) : (leading : Int) - (((i + 1 : Nat) : Int) - 1) =
      (leading - i : Nat) := by omega
  obtain ⟨d, found⟩ : ∃ d, onGrid tie mantissa exponent leading (last + 1) = some d := by
    refine isSome_onGrid positive (grid last (Nat.le_refl _)) full ?_
    rwa [← sum, Nat.add_sub_cancel_left]
  obtain ⟨i, le, d, tried, found⟩ := @exists_findSome?_range _
    (fun i => onGrid tie mantissa exponent leading (i + 1)) _ _ within _ found
  have here : onGrid tie mantissa exponent leading (i + 1) = some d := tried
  obtain ⟨below, -, -, spec⟩ := @onGrid_spec mantissa _ positive tie _ _ _ (grid i le)
  rw [here] at spec
  obtain ⟨k, whole, same⟩ := strip_spec 17 spec.1
  refine ⟨(d.strip 17).digits, k, ?_, by rw [same]; exact spec.2⟩
  rw [shortest, power_natCast]
  simp only [first, found, Option.getD_some, ← whole]

theorem layout_canonical {digits k : Nat} (positive : 0 < digits)
    (small : digits * 10 ^ k < 10 ^ 21) :
    Style.canonical.layout ⟨digits, k⟩ = Nat.repr (digits * 10 ^ k) := by
  have spelled := Text.toDigits_mul_pow positive k
  have short : (Nat.toDigits 10 digits).length + k ≤ 21 := by
    have all := (Nat.length_toDigits_le_iff (by decide) (by decide)).2 small
    rwa [spelled, List.length_append, List.length_replicate] at all
  have some : 0 < (Nat.toDigits 10 digits).length := Nat.length_toDigits_pos
  have positional : Style.canonical.lowest ≤ (⟨digits, k⟩ : Decimal).leading ∧
      (⟨digits, k⟩ : Decimal).leading ≤ Style.canonical.highest := by
    simp only [Style.canonical, Decimal.leading, Text.length_repr]
    omega
  have whole : (0 : Int) ≤ k := Int.natCast_nonneg k
  rw [← String.toList_inj, Nat.toList_repr, spelled, Style.layout]
  simp only [if_pos positional, if_pos whole, String.toList_ofList]
  simp [Style.canonical]

end Appliance.Binary64
