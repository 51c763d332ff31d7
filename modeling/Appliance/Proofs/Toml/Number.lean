import Appliance.Proofs.Text.Digits
import Appliance.Toml.Moment
import Appliance.Toml.Number
import Mathlib.Tactic.SplitIfs

/-! Reading back natural numbers. Their digits are no date and no time, and start with no zero of no
use. -/
namespace Appliance.Toml

def Ends (rest : List Char) : Prop := ∀ c ∈ rest.head?, c = '\n' ∨ c = ',' ∨ c = ']'

theorem Ends.head_ne {rest : List Char} (h : Ends rest) {c : Char} (other : c ∉ ['\n', ',', ']']) :
    rest.head? ≠ some c :=
  fun first => other (by simpa using h c first)

theorem Ends.not_isDigit {rest : List Char} (h : Ends rest) :
    ∀ c ∈ rest.head?, c.isDigit = false := by
  intro c first
  rcases h c first with rfl | rfl | rfl <;> decide

section Digits

variable {digits rest : List Char}

theorem moreDigits_append (all : ∀ c ∈ digits, c.isDigit = true) (ends : Ends rest) :
    moreDigits Char.isDigit (digits ++ rest) = (digits, rest) := by
  induction digits with
  | nil =>
    cases rest with
    | nil => rfl
    | cons c rest =>
      have other := @Ends.head_ne _ ends '_' (by decide)
      have notDigit := ends.not_isDigit c rfl
      unfold moreDigits
      split <;> simp_all
  | cons d digits ih =>
    have tail := ih fun c hc => all c (List.mem_cons_of_mem _ hc)
    have isDigit := all d List.mem_cons_self
    have other : d ≠ '_' := by
      rintro rfl
      exact absurd isDigit (by decide)
    rw [List.cons_append]
    unfold moreDigits
    split <;> simp_all

theorem readFixed_eq_some (all : ∀ c ∈ rest.head?, c.isDigit = false) {width n : Nat}
    {after : List Char} (h : readFixed width (digits ++ rest) = some (n, after)) :
    after = digits.drop width ++ rest := by
  simp only [readFixed] at h
  split_ifs at h with fixed
  obtain ⟨-, rfl⟩ := Prod.mk.inj (Option.some.inj h)
  refine List.drop_append_of_le_length (Nat.le_of_not_lt fun past => ?_)
  obtain ⟨k, rfl⟩ := Nat.exists_eq_add_of_lt past
  cases rest with
  | nil =>
    have length := fixed.1
    simp only [List.append_nil, List.length_take] at length
    omega
  | cons r rest =>
    have width : digits.length + k + 1 - digits.length = k + 1 := by omega
    have isDigit := List.all_eq_true.1 fixed.2 r (by simp [List.take_append, width])
    exact absurd isDigit (by simp [all r rfl])

theorem take?_eq_none {c : Char} {s : List Char} (other : s.head? ≠ some c) : take? c s = none := by
  cases s with
  | nil => rfl
  | cons d s => exact if_neg fun same : c = d => other (same ▸ rfl)

theorem take?_of_readFixed (all : ∀ c ∈ digits, c.isDigit = true) (ends : Ends rest)
    {width n : Nat} {after : List Char} (h : readFixed width (digits ++ rest) = some (n, after))
    {c : Char} (notDigit : c.isDigit = false) (other : c ∉ ['\n', ',', ']']) :
    take? c after = none := by
  rw [readFixed_eq_some ends.not_isDigit h]
  refine take?_eq_none ?_
  cases left : digits.drop width with
  | nil => exact ends.head_ne other
  | cons d more =>
    have isDigit := all d (List.mem_of_mem_drop (left ▸ List.mem_cons_self))
    rintro same
    obtain rfl : d = c := by simpa using same
    simp [isDigit] at notDigit

end Digits

section Natural

variable {rest : List Char} (ends : Ends rest)
include ends

theorem readMoment_toDigits (n : Nat) : readMoment (Nat.toDigits 10 n ++ rest) = none := by
  have all : ∀ c ∈ Nat.toDigits 10 n, c.isDigit = true := fun c hc =>
    Nat.isDigit_of_mem_toDigits (by decide) (by decide) hc
  have noDate : readDate (Nat.toDigits 10 n ++ rest) = none := by
    cases year : readFixed 4 (Nat.toDigits 10 n ++ rest) with
    | none => simp [readDate, year]
    | some read =>
      have noDash : take? '-' read.2 = none :=
        take?_of_readFixed all ends year (by decide) (by decide)
      simp [readDate, year, noDash]
  have noClock : readClock (Nat.toDigits 10 n ++ rest) = none := by
    cases hour : readFixed 2 (Nat.toDigits 10 n ++ rest) with
    | none => simp [readClock, hour]
    | some read =>
      have noColon : take? ':' read.2 = none :=
        take?_of_readFixed all ends hour (by decide) (by decide)
      simp [readClock, hour, noColon]
  rw [readMoment, noDate, noClock]
  rfl

theorem readWhole_toDigits (n : Nat) :
    readWhole (Nat.toDigits 10 n ++ rest) = some (Nat.toDigits 10 n, rest) := by
  obtain ⟨d, more, digits, isDigit, alone⟩ := Text.exists_toDigits_eq_cons n
  have all : ∀ c ∈ more, c.isDigit = true := fun c hc =>
    Nat.isDigit_of_mem_toDigits (by decide) (by decide) (digits ▸ List.mem_cons_of_mem d hc)
  rw [digits, List.cons_append]
  unfold readWhole
  split
  · next same =>
    obtain ⟨rfl, rfl⟩ := List.cons.inj same
    rw [alone rfl]
    rfl
  · simp [readDigits, isDigit, moreDigits_append all ends]

theorem readFraction_of_ends : readFraction rest = some ([], rest) := by
  have noPoint := @Ends.head_ne _ ends '.' (by decide)
  unfold readFraction
  split <;> simp_all

theorem readExponent_of_ends : readExponent rest = some (none, rest) := by
  cases rest with
  | nil => rfl
  | cons c rest =>
    have lower : c ≠ 'e' := by simpa using ends.head_ne (by decide)
    have upper : c ≠ 'E' := by simpa using ends.head_ne (by decide)
    rw [readExponent, if_neg (by simp [lower, upper])]

/-- Digits that do not start with a zero of no use are a number of base ten. -/
theorem readNumber_append {d : Char} {more : List Char} {value : Value} (isDigit : d.isDigit = true)
    (alone : d = '0' → more = [])
    (whole : readWhole (d :: more ++ rest) = some (d :: more, rest))
    (number : decimal false (d :: more) [] none = some value) :
    readNumber (d :: more ++ rest) = some (value, rest) := by
  have decimal {c : Char} (other : c ∉ ['\n', ',', ']']) (s : List Char) :
      d :: more ++ rest ≠ '0' :: c :: s := by
    intro same
    obtain ⟨zero, tail⟩ := List.cons.inj same
    rw [alone zero] at tail
    have following : rest = c :: s := tail
    exact ends.head_ne other (following ▸ rfl)
  have first {c : Char} (letter : c.isDigit = false) (s : List Char) :
      d :: more ++ rest ≠ c :: s := by
    intro same
    obtain rfl := (List.cons.inj same).1
    simp [letter] at isDigit
  have sign : readSign (d :: more ++ rest) = (false, d :: more ++ rest) := by
    unfold readSign
    split
    · next same => exact absurd same (first (by decide) _)
    · next same => exact absurd same (first (by decide) _)
    · rfl
  -- The prefixes of other bases, the special values and the signs all fail at the first two digits.
  unfold readNumber
  split
  · next same => exact absurd same (decimal (by decide) _)
  · next same => exact absurd same (decimal (by decide) _)
  · next same => exact absurd same (decimal (by decide) _)
  · rw [sign]
    split
    · next same => exact absurd (Prod.mk.inj same).2 (first (by decide) _)
    · next same => exact absurd (Prod.mk.inj same).2 (first (by decide) _)
    · next same =>
      obtain ⟨rfl, rfl⟩ := Prod.mk.inj same
      refine Option.bind_eq_some_iff.2 ⟨_, whole, ?_⟩
      refine Option.bind_eq_some_iff.2 ⟨_, readFraction_of_ends ends, ?_⟩
      refine Option.bind_eq_some_iff.2 ⟨_, readExponent_of_ends ends, ?_⟩
      exact Option.bind_eq_some_iff.2 ⟨_, number, rfl⟩

theorem readNumber_toDigits {n : Nat} (small : n < 0x8000000000000000) :
    readNumber (Nat.toDigits 10 n ++ rest) = some (.integer n, rest) := by
  have whole := readWhole_toDigits ends n
  have number : decimal false (Nat.toDigits 10 n) [] none = some (.integer n) := by
    simp [decimal, integer, Nat.ofDigitChars_ten_toDigits]
    omega
  obtain ⟨d, more, digits, isDigit, alone⟩ := Text.exists_toDigits_eq_cons n
  rw [digits] at whole number ⊢
  exact readNumber_append ends isDigit alone whole number

end Natural

end Appliance.Toml
