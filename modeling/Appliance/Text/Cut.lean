/-! Cutting a text at every occurrence of one character, and joining the pieces again. -/
namespace Appliance.Text

/-- The pieces between the separators, empty ones kept: one more than there are separators. -/
def cut (separator : Char) : List Char → List (List Char)
  | [] => [[]]
  | c :: cs =>
    if c = separator then [] :: cut separator cs
    else
      match cut separator cs with
      | [] => [[c]]
      | piece :: pieces => (c :: piece) :: pieces

theorem cut_ne_nil (separator : Char) (s : List Char) : cut separator s ≠ [] := by
  cases s with
  | nil => simp [cut]
  | cons c cs =>
    simp only [cut]
    split
    · simp
    · split <;> simp

def join (separator : List Char) : List (List Char) → List Char
  | [] => []
  | [piece] => piece
  | piece :: pieces => piece ++ separator ++ join separator pieces

theorem join_cut (separator : Char) (s : List Char) : join [separator] (cut separator s) = s := by
  induction s with
  | nil => rfl
  | cons c cs ih =>
    simp only [cut]
    cases hp : cut separator cs with
    | nil => exact absurd hp (cut_ne_nil separator cs)
    | cons p ps =>
      rw [hp] at ih
      split
      · next h => simp [join, ih, h]
      · cases ps with
        | nil => simpa [join] using ih
        | cons q qs => simpa [join] using ih

end Appliance.Text
