import Mathlib.Data.Char
import Mathlib.Data.List.Basic

/-! The order of texts by code points is the order of their UTF-8 bytes: a greater character has a
greater byte where the two encodings first differ. -/
namespace Appliance.Text

def bytes (s : String) : List UInt8 := s.toUTF8.data.toList

theorem bytes_eq_flatMap (s : String) : bytes s = s.toList.flatMap String.utf8EncodeChar := by
  have encoded : s.toByteArray = s.toList.utf8Encode := by
    rw [← String.toByteArray_ofList, String.ofList_toList]
  rw [bytes, String.toUTF8_eq_toByteArray, encoded]
  exact List.toList_data_toByteArray

theorem encode_lt {c d : Char} (h : c < d) (x y : List UInt8) :
    String.utf8EncodeChar c ++ x < String.utf8EncodeChar d ++ y := by
  have less : c.val.toNat < d.val.toNat := h
  have bound : d.val.toNat < 0x110000 := by
    have := d.valid
    simp only [UInt32.isValidChar, Nat.isValidChar] at this
    omega
  unfold String.utf8EncodeChar
  generalize c.val.toNat = v at *
  generalize d.val.toNat = w at *
  have digits : ∀ n : Nat, n / 4096 = n / 64 / 64 ∧ n / 262144 = n / 64 / 64 / 64 := by omega
  simp only [(digits _).1, (digits _).2]
  split_ifs <;>
    simp only [List.cons_append, List.nil_append, List.cons_lt_cons_iff, UInt8.lt_iff_toNat_lt,
      ← UInt8.toNat_inj, UInt8.toNat_ofNat'] <;>
    simp (disch := omega) only [Nat.mod_eq_of_lt] <;>
    omega

theorem append_lt_append_left_iff (w x y : List UInt8) : w ++ x < w ++ y ↔ x < y := by
  induction w with
  | nil => rfl
  | cons b w ih => simpa [List.cons_lt_cons_iff] using ih

theorem flatMap_encode_lt_iff (s t : List Char) :
    s.flatMap String.utf8EncodeChar < t.flatMap String.utf8EncodeChar ↔ s < t := by
  induction s generalizing t with
  | nil =>
    cases t with
    | nil => simp
    | cons d t =>
      obtain ⟨b, rest, encoded⟩ := List.exists_cons_of_ne_nil
        (String.utf8EncodeChar_ne_nil (c := d))
      simp [encoded]
  | cons c s ih =>
    cases t with
    | nil => simp
    | cons d t =>
      simp only [List.flatMap_cons, List.cons_lt_cons_iff]
      rcases lt_trichotomy c d with less | rfl | greater
      · simp [less, encode_lt less]
      · simp [append_lt_append_left_iff, ih]
      · have reverse := encode_lt greater (t.flatMap String.utf8EncodeChar)
          (s.flatMap String.utf8EncodeChar)
        simp [lt_asymm greater, ne_of_gt greater, List.lt_asymm reverse]

theorem bytes_lt_bytes_iff (s t : String) : bytes s < bytes t ↔ s < t := by
  rw [bytes_eq_flatMap, bytes_eq_flatMap, flatMap_encode_lt_iff]
  rfl

end Appliance.Text
