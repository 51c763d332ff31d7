import Appliance.Proofs.Text.Spans
import Appliance.Size
import Mathlib.Data.List.Induction
import Mathlib.Data.Nat.Digits.Defs

/-! What texts mean as sizes, said without the reader: the parts of a text, the number that digits
stand for and the names of the units come first, then which outcome each text has. -/
namespace Appliance.Size

open Text (Trimmed)

def value (digits : List Char) : Nat :=
  Nat.ofDigits 10 (digits.reverse.map fun c => c.toNat - '0'.toNat)

theorem ofDigitChars_eq_value (digits : List Char) :
    Nat.ofDigitChars 10 digits 0 = value digits := by
  induction digits using List.reverseRecOn with
  | nil => rfl
  | append_singleton digits c ih =>
    rw [Nat.ofDigitChars_append, ih, Nat.ofDigitChars_cons, value, value, List.reverse_concat,
      List.map_cons, Nat.ofDigits_cons, Nat.add_comm]
    rfl

def unitNames : List (String × Nat) :=
  [("", 1), ("b", 1), ("k", 2 ^ 10), ("kb", 2 ^ 10), ("kib", 2 ^ 10), ("m", 2 ^ 20),
    ("mb", 2 ^ 20), ("mib", 2 ^ 20), ("g", 2 ^ 30), ("gb", 2 ^ 30), ("gib", 2 ^ 30),
    ("t", 2 ^ 40), ("tb", 2 ^ 40), ("tib", 2 ^ 40)]

/-- Is the text the name of a unit of so many bytes? Letters of ASCII may be large ones. -/
def Denotes (unit : List Char) (factor : Nat) : Prop :=
  (String.ofList (unit.map Char.toLower), factor) ∈ unitNames

instance (unit : List Char) (factor : Nat) : Decidable (Denotes unit factor) :=
  inferInstanceAs (Decidable (_ ∈ unitNames))

theorem factor?_eq_some_iff {unit : List Char} {factor : Nat} :
    factor? unit = some factor ↔ Denotes unit factor := by
  unfold factor? Denotes
  generalize String.ofList (unit.map Char.toLower) = name
  constructor
  · split
    all_goals
      intro same
      cases same <;> decide
  · intro listed
    simp only [unitNames, List.mem_cons, Prod.mk.injEq, List.not_mem_nil, or_false] at listed
    rcases listed with h | h | h | h | h | h | h | h | h | h | h | h | h | h
    all_goals
      obtain ⟨rfl, rfl⟩ := h
      rfl

theorem factor?_eq_none_iff {unit : List Char} :
    factor? unit = none ↔ ∀ factor, ¬ Denotes unit factor := by
  simp only [← factor?_eq_some_iff, Option.eq_none_iff_forall_ne_some, ne_eq]

/-- The parts of a text that is read as a size: the text without blanks around it, the longest run
of digits that it starts with, and what is left, without blanks around it. -/
structure Parts (raw text digits unit : List Char) : Prop where
  trimmed : Trimmed raw text
  isDigit : ∀ c ∈ digits, c.isDigit = true
  rest : ∃ rest, text = digits ++ rest ∧ (∀ c ∈ rest.head?, c.isDigit = false) ∧ Trimmed rest unit

theorem parts_iff {raw text digits unit : List Char} :
    Parts raw text digits unit ↔
      text = Text.trim raw ∧ digits = text.takeWhile Char.isDigit ∧
        unit = Text.trim (text.dropWhile Char.isDigit) := by
  constructor
  · rintro ⟨trimmed, isDigit, rest, rfl, ends, unitTrimmed⟩
    rw [Text.takeWhile_append isDigit ends, Text.dropWhile_append isDigit ends]
    exact ⟨trimmed.trim_eq.symm, rfl, unitTrimmed.trim_eq.symm⟩
  · rintro ⟨rfl, rfl, rfl⟩
    refine ⟨Text.trimmed_trim raw, fun c mem => List.mem_takeWhile_imp mem, _,
      List.takeWhile_append_dropWhile.symm, Text.head?_dropWhile _, Text.trimmed_trim _⟩

/-- What a text of these parts means as a size, or why it is none. The first reason counts. -/
inductive Means (text digits unit : List Char) : Except SizeError Size → Prop
  | empty (nothing : text = []) : Means text digits unit (.error .empty)
  | invalidNumber (something : text ≠ []) (bad : digits = [] ∨ 2 ^ 64 ≤ value digits) :
    Means text digits unit (.error (.invalidNumber (String.ofList text)))
  | unknownUnit (filled : digits ≠ []) (small : value digits < 2 ^ 64)
      (unknown : ∀ factor, ¬ Denotes unit factor) :
    Means text digits unit (.error (.unknownUnit (String.ofList unit)))
  | overflow (factor : Nat) (filled : digits ≠ []) (small : value digits < 2 ^ 64)
      (known : Denotes unit factor) (large : 2 ^ 64 ≤ value digits * factor) :
    Means text digits unit (.error (.overflow (String.ofList text)))
  | size (factor : Nat) {size : Size} (filled : digits ≠ []) (known : Denotes unit factor)
      (product : size.bytes.toNat = value digits * factor) :
    Means text digits unit (.ok size)

section Reading

variable {raw : String} {text digits unit : List Char} {result : Except SizeError Size}

theorem exists_means (text digits unit : List Char) :
    ∃ result, Means text digits unit result := by
  by_cases nothing : text = []
  · exact ⟨_, .empty nothing⟩
  by_cases bad : digits = [] ∨ 2 ^ 64 ≤ value digits
  · exact ⟨_, .invalidNumber nothing bad⟩
  obtain ⟨filled, small⟩ := not_or.1 bad
  by_cases unknown : ∀ factor, ¬ Denotes unit factor
  · exact ⟨_, .unknownUnit filled (Nat.lt_of_not_le small) unknown⟩
  obtain ⟨factor, known⟩ := not_forall_not.1 unknown
  rcases Nat.lt_or_ge (value digits * factor) (2 ^ 64) with fits | large
  · exact ⟨.ok ⟨.ofNat (value digits * factor)⟩, .size factor filled known
      (UInt64.toNat_ofNat_of_lt' fits)⟩
  · exact ⟨_, .overflow factor filled (Nat.lt_of_not_le small) known large⟩

theorem factor_pos {factor : Nat} (known : Denotes unit factor) : 0 < factor := by
  have all : ∀ unit ∈ unitNames, 0 < unit.2 := by decide
  exact all _ known

theorem read_eq_of_means (parts : Parts raw.toList text digits unit)
    (means : Means text digits unit result) : read raw = result := by
  obtain ⟨trimmed, isDigits, isUnit⟩ := parts_iff.1 parts
  have nonempty : digits ≠ [] → text ≠ [] := by
    rintro filled rfl
    exact filled isDigits
  unfold read
  simp only [← trimmed, ← isDigits, ← isUnit, ofDigitChars_eq_value]
  cases means with
  | empty nothing => simp [nothing]
  | invalidNumber something bad =>
    have bad : digits = [] ∨ limit ≤ value digits := bad
    simp [something, bad]
  | unknownUnit filled small unknown =>
    have small : ¬ limit ≤ value digits := Nat.not_le.2 small
    simp [nonempty filled, filled, small, factor?_eq_none_iff.2 unknown]
  | overflow factor filled small known large =>
    have small : ¬ limit ≤ value digits := Nat.not_le.2 small
    have large : limit ≤ value digits * factor := large
    simp [nonempty filled, filled, small, factor?_eq_some_iff.2 known, large]
  | @size factor size filled known product =>
    -- What the product fits into, the number alone fits into, since no unit stands for no bytes.
    have fits : size.bytes.toNat < limit := size.bytes.toNat_lt
    have small : value digits < limit :=
      Nat.lt_of_le_of_lt (Nat.le_mul_of_pos_right _ (factor_pos known)) (product ▸ fits)
    simp [nonempty filled, filled, Nat.not_le.2 small, factor?_eq_some_iff.2 known, ← product,
      Nat.not_le.2 fits]

theorem read_eq_iff (parts : Parts raw.toList text digits unit) :
    read raw = result ↔ Means text digits unit result := by
  constructor
  · rintro rfl
    obtain ⟨result, means⟩ := exists_means text digits unit
    exact read_eq_of_means parts means ▸ means
  · exact read_eq_of_means parts

/-- Every text has parts, and it is read as what its parts mean and as nothing else. -/
theorem read_means_parts (raw : String) :
    (∃ text digits unit, Parts raw.toList text digits unit) ∧
      ∀ text digits unit, Parts raw.toList text digits unit →
        ∀ result, read raw = result ↔ Means text digits unit result :=
  ⟨⟨_, _, _, parts_iff.2 ⟨rfl, rfl, rfl⟩⟩, fun _ _ _ parts _ => read_eq_iff parts⟩

/-- One size with blanks of several kinds and zeros in front, and one just too large. -/
theorem read_means_parts_of_kibibytes :
    Parts "\u3000 0064 kIB\n".toList "0064 kIB".toList "0064".toList "kIB".toList ∧
      read "\u3000 0064 kIB\n" = .ok ⟨65536⟩ ∧
      Parts "18014398509481984K".toList "18014398509481984K".toList "18014398509481984".toList
        ['K'] ∧
      read "18014398509481984K" = .error (.overflow "18014398509481984K") := by
  have parts : Parts "\u3000 0064 kIB\n".toList "0064 kIB".toList "0064".toList "kIB".toList :=
    parts_iff.2 (by decide)
  have large : Parts "18014398509481984K".toList "18014398509481984K".toList
      "18014398509481984".toList ['K'] := parts_iff.2 (by decide)
  refine ⟨parts, ((read_means_parts _).2 _ _ _ parts _).2 ?_, large,
    ((read_means_parts _).2 _ _ _ large _).2 ?_⟩
  · exact .size (2 ^ 10) (by decide) (by decide) (by decide)
  · exact .overflow (2 ^ 10) (by decide) (by decide) (by decide) (by decide)

end Reading

end Appliance.Size
