import Appliance.Json.Quoted
import Appliance.Proofs.Text.Digits
import Mathlib.Tactic.SplitIfs

/-! Reading back quoted texts, character by character. -/
namespace Appliance.Json

theorem readQuoted_unescape {c d : Char} (notU : c ≠ 'u') (stands : unescape? c = some d)
    (s : List Char) :
    readQuoted ('\\' :: c :: s) = (readQuoted s).map fun (text, rest) => (d :: text, rest) := by
  rw [readQuoted]
  · rw [stands]
    cases readQuoted s <;> rfl
  · exact fun _ _ _ _ _ same => absurd same notU

theorem readQuoted_control {c : Char} (small : c.toNat < 0x20) (s : List Char) :
    readQuoted ('\\' :: 'u' :: '0' :: '0' :: Text.hexDigit (c.toNat / 16) ::
        Text.hexDigit c.toNat :: s) =
      (readQuoted s).map fun (text, rest) => (c :: text, rest) := by
  have zero : Text.hexValue? '0' = some 0 := by decide
  have number : Text.hexNumber? ['0', '0', Text.hexDigit (c.toNat / 16), Text.hexDigit c.toNat] =
      some c.toNat := by
    simp [Text.hexNumber?, Text.hexValue?_hexDigit, zero]
    omega
  have noSurrogate : ¬(0xD800 ≤ c.toNat ∧ c.toNat ≤ 0xDBFF) := by omega
  rw [readQuoted, number]
  simp only [Option.bind_eq_bind, Option.bind_some, if_neg noSurrogate, Text.character?_toNat]
  cases readQuoted s <;> rfl

theorem readQuoted_cons {c : Char} (mark : c ≠ '"') (backslash : c ≠ '\\') (large : ¬c.toNat < 0x20)
    (s : List Char) :
    readQuoted (c :: s) = (readQuoted s).map fun (text, rest) => (c :: text, rest) := by
  rw [readQuoted, if_neg large]
  · cases readQuoted s <;> rfl
  · exact mark
  · rintro _ _ _ _ _ rfl
    exact absurd rfl backslash
  · rintro _ _ rfl
    exact absurd rfl backslash

theorem readQuoted_escape (c : Char) (s : List Char) :
    readQuoted (escape c ++ s) = (readQuoted s).map fun (text, rest) => (c :: text, rest) := by
  unfold escape
  split_ifs with mark backslash h₁ h₂ h₃ h₄ h₅ small
  · exact readQuoted_unescape (by decide) (by rw [mark]; rfl) s
  · exact readQuoted_unescape (by decide) (by rw [backslash]; rfl) s
  · exact readQuoted_unescape (by decide) (by rw [h₁]; rfl) s
  · exact readQuoted_unescape (by decide) (by rw [h₂]; rfl) s
  · exact readQuoted_unescape (by decide) (by rw [h₃]; rfl) s
  · exact readQuoted_unescape (by decide) (by rw [h₄]; rfl) s
  · exact readQuoted_unescape (by decide) (by rw [h₅]; rfl) s
  · exact readQuoted_control small s
  · exact readQuoted_cons mark backslash small s

theorem readQuoted_flatMap_escape (text rest : List Char) :
    readQuoted (text.flatMap escape ++ '"' :: rest) = some (text, rest) := by
  induction text with
  | nil => rw [List.flatMap_nil, List.nil_append, readQuoted]
  | cons c text ih => rw [List.flatMap_cons, List.append_assoc, readQuoted_escape, ih]; rfl

end Appliance.Json
