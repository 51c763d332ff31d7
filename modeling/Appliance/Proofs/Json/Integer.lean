import Appliance.Proofs.Decimal.Shortest
import Appliance.Proofs.Json.Printer

/-! The canonical form of integers. What a large one is read as is another natural number, or a
floating-point number, that is nearest to the same floating-point number; so two integers have the
same canonical form where they have the same nearest one. -/
namespace Appliance.Json

open Binary64 (ofDecimal)

def nearest (n : Int) : Binary64 := ofDecimal false n.toNat 0

/-- What the canonical form of an integer is read as. -/
def canonicalNumber (n : Int) : Value :=
  match readNumber false (canonicalInteger n).toList with
  | some (value, _) => value
  | none => .null

def approximate : Value → Binary64
  | .integer n => nearest n
  | .float x => x
  | _ => .nan

section Large

open Binary64

variable {n : Nat}

theorem canonicalInteger_of_le (small : n ≤ 2 ^ 53) : canonicalInteger n = Nat.repr n := by
  rw [canonicalInteger, if_pos (by simpa using small)]
  rfl

theorem canonicalInteger_of_lt (large : 2 ^ 53 < n) :
    canonicalInteger n = (nearest n).text .canonical := by
  have beyond : ¬(n : Int).natAbs ≤ 0x20000000000000 := by
    rw [Int.natAbs_natCast]
    omega
  have notNegative : decide ((n : Int) < 0) = false := by simp
  rw [canonicalInteger, if_neg beyond, notNegative]
  rfl

theorem exists_text_canonical {mantissa exponent : Nat} (full : Full mantissa)
    (positive : 0 < exponent) (small : exponent ≤ 12) :
    ∃ v : Nat, (finite false mantissa exponent).text .canonical = Nat.repr v ∧
      nearest v = finite false mantissa exponent := by
  obtain ⟨digits, k, shortest, rounds⟩ := exists_shortest full positive Style.canonical.tie
  have some : mantissa ≠ 0 := Nat.ne_of_gt (Nat.lt_of_lt_of_le (by decide) full.least)
  have positive' : 0 < digits := Nat.pos_of_ne_zero fun zero => rounds.ne_zero full (by
    rw [zero, Nat.zero_mul])
  have bound : digits * 10 ^ k < 10 ^ 21 := by
    calc digits * 10 ^ k < 2 ^ (53 + exponent) := rounds.lt full
      _ ≤ 2 ^ 65 := Nat.pow_le_pow_right (by decide) (by omega)
      _ ≤ 10 ^ 21 := by decide
  refine ⟨digits * 10 ^ k, ?_, rounds.ofDecimal_eq full positive (by omega)⟩
  rw [text, if_neg some, shortest, layout_canonical positive' bound]
  rfl

theorem exists_nearest_eq (large : 2 ^ 53 ≤ n) (small : n < limit) :
    ∃ mantissa exponent : Nat, Full mantissa ∧ 0 < exponent ∧ exponent ≤ 12 ∧
      nearest n = finite false mantissa exponent := by
  have some : n ≠ 0 := by
    rintro rfl
    exact absurd large (by decide)
  have bits : 53 ≤ n.log2 := (Nat.le_log2 some).2 large
  have few : n.log2 < 64 := (Nat.log2_lt some).2 small
  obtain ⟨k, log⟩ := Nat.exists_eq_add_of_le bits
  have ⟨least, most⟩ := (Nat.log2_eq_iff some).1 log
  obtain ⟨mantissa, exponent, full, positive, bound, rounds⟩ := exists_rounds least
    (by rwa [Nat.add_right_comm] at most)
  exact ⟨mantissa, exponent, full, positive, by omega, rounds.ofDecimal_eq full positive (by omega)⟩

theorem nearest_ne {m mantissa exponent : Nat} (small : m < 2 ^ 53) (positive : 0 < exponent) :
    nearest m ≠ finite false mantissa exponent := by
  obtain ⟨k, same⟩ := exists_ofDecimal_eq small
  have exact : nearest m = finite false (m * 2 ^ k) (-(k : Int)) := same
  rw [exact]
  intro same
  -- Below 2^53 no bit is lost, so the exponent is none that is positive.
  have exponents := (finite.inj same).2.2
  omega

theorem nearest_twoPow : nearest (2 ^ 53 : Nat) = finite false leastFull 1 := by decide +kernel

theorem eq_of_nearest_eq {m n : Nat} (smallM : m ≤ 2 ^ 53) (smallN : n ≤ 2 ^ 53)
    (same : nearest m = nearest n) : m = n := by
  rcases Nat.eq_or_lt_of_le smallM with rfl | lessM
  · rcases Nat.eq_or_lt_of_le smallN with rfl | lessN
    · rfl
    · rw [nearest_twoPow] at same
      exact absurd same.symm (nearest_ne lessN (by decide))
  · rcases Nat.eq_or_lt_of_le smallN with rfl | lessN
    · rw [nearest_twoPow] at same
      exact absurd same (nearest_ne lessM (by decide))
    · obtain ⟨k, first⟩ := exists_ofDecimal_eq lessM
      obtain ⟨l, second⟩ := exists_ofDecimal_eq lessN
      obtain ⟨-, mantissas, exponents⟩ := finite.inj (first.symm.trans (same.trans second))
      obtain rfl : k = l := by omega
      exact Nat.mul_right_cancel (Nat.two_pow_pos k) mantissas

theorem eq_zero_of_nearest_eq {n : Nat} (bound : n < limit) (same : nearest n = nearest 0) :
    n = 0 := by
  rcases Nat.lt_or_ge (2 ^ 53) n with large | small
  · obtain ⟨mantissa, exponent, -, positive, -, rounded⟩ := exists_nearest_eq large.le bound
    exact absurd (same.symm.trans rounded) (nearest_ne (show 0 < 2 ^ 53 by decide) positive)
  · exact eq_of_nearest_eq small (Nat.zero_le _) same

theorem canonicalInteger_eq_of_le_of_lt {m n : Nat} (small : m ≤ 2 ^ 53) (large : 2 ^ 53 < n)
    (bound : n < limit) (same : nearest m = nearest n) :
    canonicalInteger m = canonicalInteger n := by
  obtain ⟨mantissa, exponent, -, positive, -, rounded⟩ := exists_nearest_eq large.le bound
  rcases Nat.eq_or_lt_of_le small with rfl | less
  · rw [canonicalInteger_of_le small, canonicalInteger_of_lt large, ← same, nearest_twoPow]
    decide +kernel
  · exact absurd (same.trans rounded) (nearest_ne less positive)

theorem canonicalInteger_congr {m n : Nat} (boundM : m < limit) (boundN : n < limit)
    (same : nearest m = nearest n) : canonicalInteger m = canonicalInteger n := by
  rcases Nat.lt_or_ge (2 ^ 53) m with largeM | smallM
  · rcases Nat.lt_or_ge (2 ^ 53) n with largeN | smallN
    · rw [canonicalInteger_of_lt largeM, canonicalInteger_of_lt largeN, same]
    · exact (canonicalInteger_eq_of_le_of_lt smallN largeM boundM same.symm).symm
  · rcases Nat.lt_or_ge (2 ^ 53) n with largeN | smallN
    · exact canonicalInteger_eq_of_le_of_lt smallM largeN boundN same
    · rw [eq_of_nearest_eq smallM smallN same]

end Large

section Reading

open Binary64 (finite)

variable {n : Nat}

theorem exists_nearest_finite (small : n < limit) :
    ∃ mantissa exponent, nearest n = finite false mantissa exponent := by
  rcases Nat.lt_or_ge n (2 ^ 53) with less | large
  · obtain ⟨k, exact⟩ := Binary64.exists_ofDecimal_eq less
    exact ⟨_, _, exact⟩
  · obtain ⟨mantissa, exponent, -, -, -, rounded⟩ := exists_nearest_eq large small
    exact ⟨_, _, rounded⟩

theorem exists_canonicalInteger (small : n < limit) :
    ∃ v : Nat, canonicalInteger n = Nat.repr v ∧ nearest v = nearest n := by
  rcases Nat.lt_or_ge (2 ^ 53) n with large | less
  · obtain ⟨mantissa, exponent, full, positive, few, rounded⟩ := exists_nearest_eq large.le small
    obtain ⟨v, form, same⟩ := exists_text_canonical full positive few
    exact ⟨v, by rw [canonicalInteger_of_lt large, rounded, form], same.trans rounded.symm⟩
  · exact ⟨n, canonicalInteger_of_le less, rfl⟩

theorem exists_number_toDigits {v mantissa : Nat} {exponent : Int}
    (rounded : nearest v = finite false mantissa exponent) :
    ∃ value, number false (Nat.toDigits 10 v) [] none = some value ∧
      approximate value = nearest v := by
  rcases Nat.lt_or_ge v limit with small | large
  · exact ⟨_, number_toDigits small, rfl⟩
  · refine ⟨.float (nearest v), ?_, rfl⟩
    have beyond : ¬v < 0x10000000000000000 := Nat.not_lt.2 large
    have whole : ofDecimal false v 0 = finite false mantissa exponent := rounded
    simp [number, Nat.ofDigitChars_ten_toDigits, beyond, whole, rounded]

theorem canonicalNumber_eq {v : Nat} {value : Value} (form : canonicalInteger n = Nat.repr v)
    (read : number false (Nat.toDigits 10 v) [] none = some value) : canonicalNumber n = value := by
  have ends : Ends [] := fun c mem => by simp at mem
  have all := readNumber_toDigits ends read
  rw [List.append_nil, ← Nat.toList_repr, ← form] at all
  rw [canonicalNumber, all]

theorem reads_canonicalInteger (small : n < limit) :
    (∀ depth, Reads depth (canonicalInteger n).toList (canonicalNumber n)) ∧
      approximate (canonicalNumber n) = nearest n := by
  obtain ⟨v, form, same⟩ := exists_canonicalInteger small
  obtain ⟨mantissa, exponent, rounded⟩ := exists_nearest_finite small
  obtain ⟨value, read, close⟩ := exists_number_toDigits (same.trans rounded)
  rw [canonicalNumber_eq form read, form]
  exact ⟨fun depth => reads_natural read, close.trans same⟩

theorem canonicalNumber_of_le (small : n ≤ 2 ^ 53) : canonicalNumber n = .integer n := by
  have below : n < limit := Nat.lt_of_le_of_lt small (by decide)
  exact canonicalNumber_eq (canonicalInteger_of_le small) (number_toDigits below)

theorem canonicalNumber_eq_iff {m n : Nat} (smallM : m < limit) (smallN : n < limit) :
    canonicalNumber m = canonicalNumber n ↔ nearest m = nearest n := by
  constructor
  · intro same
    rw [← (reads_canonicalInteger smallM).2, same, (reads_canonicalInteger smallN).2]
  · intro same
    rw [canonicalNumber, canonicalInteger_congr smallM smallN same]
    rfl

/-- The canonical text of a value is read as the value, but for its numbers. -/
theorem Legible.read_canonical {value : Value}
    (legible : Legible (Value.Below limit) maxDepth value) :
    read (canonical value) = some (reread canonicalNumber value) := by
  refine read_of_reads (legible.reads_canonicalForm fun n below depth => ?_)
  obtain ⟨n, rfl⟩ := Int.eq_ofNat_of_zero_le below.1
  exact (reads_canonicalInteger (Int.ofNat_lt.1 below.2)).1 depth

end Reading

end Appliance.Json
