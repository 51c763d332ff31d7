import Appliance.Proofs.Json.Printer
import Appliance.Proofs.Size
import Appliance.Schema.Codec

/-! The units that sizes are printed in. The text of a size has the largest one that it is a
multiple of, and whichever way the size is written down, it is read as the same number of bytes. -/
namespace Appliance.Size

def printedUnits : List (String × Nat) :=
  [("TiB", 2 ^ 40), ("GiB", 2 ^ 30), ("MiB", 2 ^ 20), ("KiB", 2 ^ 10)]

theorem units_eq : units = printedUnits := rfl

theorem printedUnits_pairwise : printedUnits.Pairwise fun a b => b.2 < a.2 := by decide

/-- Is it the largest unit that so many bytes are a multiple of? -/
def IsLargest (n : Nat) (unit : String × Nat) : Prop :=
  unit ∈ printedUnits ∧ unit.2 ∣ n ∧ ∀ other ∈ printedUnits, other.2 ∣ n → other.2 ≤ unit.2

instance (n : Nat) (unit : String × Nat) : Decidable (IsLargest n unit) :=
  inferInstanceAs (Decidable (_ ∧ _ ∧ _))

variable {size : Size} {unit : String × Nat}

theorem text_of_isLargest (set : size.bytes.toNat ≠ 0) (largest : IsLargest size.bytes.toNat unit) :
    size.text = Nat.repr (size.bytes.toNat / unit.2) ++ " " ++ unit.1 := by
  obtain ⟨mem, divides, atMost⟩ := largest
  obtain ⟨larger, smaller, split⟩ := List.append_of_mem mem
  have descending := printedUnits_pairwise
  rw [split, List.pairwise_append] at descending
  have found : (units.find? fun unit =>
      size.bytes.toNat != 0 && size.bytes.toNat % unit.2 == 0) = some unit := by
    rw [List.find?_eq_some_iff_append, units_eq]
    refine ⟨by simp [set, Nat.mod_eq_zero_of_dvd divides], larger, smaller, split, ?_⟩
    intro other inFront
    -- A unit in front is larger than the largest that divides, so it does not divide.
    have greater := descending.2.2 other inFront unit List.mem_cons_self
    have no : ¬ other.2 ∣ size.bytes.toNat := fun divides =>
      Nat.not_le.2 greater (atMost other (split ▸ List.mem_append_left _ inFront) divides)
    simpa [set] using fun zero => no (Nat.dvd_of_mod_eq_zero zero)
  rw [text, found]

theorem text_of_no_unit
    (plain : size.bytes.toNat = 0 ∨ ∀ unit ∈ printedUnits, ¬ unit.2 ∣ size.bytes.toNat) :
    size.text = Nat.repr size.bytes.toNat := by
  have none : (units.find? fun unit =>
      size.bytes.toNat != 0 && size.bytes.toNat % unit.2 == 0) = none := by
    rw [List.find?_eq_none, units_eq]
    rcases plain with zero | all
    · simp [zero]
    · intro unit mem holds
      simp only [Bool.and_eq_true, beq_iff_eq] at holds
      exact all unit mem (Nat.dvd_of_mod_eq_zero holds.2)
  rw [text, none]

theorem read_json_repr (size : Size) :
    (Json.read (Nat.repr size.bytes.toNat)).map (Codec.size.read .json) = some (.ok size) := by
  have small : size.bytes.toNat < Json.limit := size.bytes.toNat_lt
  have text := Json.read_of_reads (Json.reads_natural (Json.number_toDigits small))
  rw [String.ofList_toList] at text
  rw [text]
  simp [Codec.size]

/-- However a size is written down, as its text or as a plain number, in JSON too, it is read as it
was. Its text has the largest unit that it is a multiple of, or none. -/
theorem text_survives (size : Size) :
    let n := size.bytes.toNat
    read size.text = .ok size ∧ read (Nat.repr n) = .ok size ∧
      (Json.read (Nat.repr n)).map (Codec.size.read .json) = some (.ok size) ∧
      (n ≠ 0 → ∀ unit, IsLargest n unit → size.text = Nat.repr (n / unit.2) ++ " " ++ unit.1) ∧
      ((n = 0 ∨ ∀ unit ∈ printedUnits, ¬ unit.2 ∣ n) → size.text = Nat.repr n) ∧
      ∀ raw, read raw = .ok size → read size.text = read raw :=
  ⟨size.read_text, size.read_repr, size.read_json_repr, fun set _ => text_of_isLargest set,
    text_of_no_unit, fun _ parsed => size.read_text.trans parsed.symm⟩

theorem text_survives_of_mebibytes :
    let size : Size := ⟨1610612736⟩
    (size.bytes.toNat ≠ 0 ∧ IsLargest size.bytes.toNat ("MiB", 2 ^ 20) ∧
      size.text = Nat.repr 1536 ++ " " ++ "MiB") ∧
    read " 001536mB\n" = .ok size ∧ read size.text = read " 001536mB\n" := by
  intro size
  have set : size.bytes.toNat ≠ 0 := by decide
  have largest : IsLargest size.bytes.toNat ("MiB", 2 ^ 20) := by decide
  have parts : Parts " 001536mB\n".toList "001536mB".toList "001536".toList "mB".toList :=
    parts_iff.2 (by decide)
  have parsed : read " 001536mB\n" = .ok size :=
    read_eq_of_means parts (.size (2 ^ 20) (by decide) (by decide) (by decide))
  obtain ⟨-, -, -, inUnit, -, same⟩ := text_survives size
  have text := inUnit set _ largest
  have quotient : size.bytes.toNat / 2 ^ 20 = 1536 := by decide
  rw [quotient] at text
  exact ⟨⟨set, largest, text⟩, parsed, same _ parsed⟩

end Appliance.Size
