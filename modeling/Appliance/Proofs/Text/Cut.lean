import Appliance.Text.Cut
import Mathlib.Data.List.Basic

/-! Joining pieces and cutting the text again gives the pieces back, where none has the separator in
it. -/
namespace Appliance.Text

variable {separator : Char}

theorem cut_append (separator : Char) (s t : List Char) :
    cut separator (s ++ separator :: t) = cut separator s ++ cut separator t := by
  induction s with
  | nil => simp [cut]
  | cons c s ih =>
    simp only [List.cons_append, cut, ih]
    split
    · rfl
    · rcases h : cut separator s with _ | ⟨piece, pieces⟩
      · exact absurd h (cut_ne_nil separator s)
      · rfl

theorem cut_of_not_mem {s : List Char} (h : separator ∉ s) : cut separator s = [s] := by
  induction s with
  | nil => rfl
  | cons c s ih =>
    have hc : c ≠ separator := fun same => h (same ▸ List.mem_cons_self)
    simp only [cut, if_neg hc, ih fun hs => h (List.mem_cons_of_mem c hs)]

theorem not_mem_of_mem_cut {s piece : List Char} (h : piece ∈ cut separator s) :
    separator ∉ piece := by
  induction s generalizing piece with
  | nil => simp_all [cut]
  | cons c s ih =>
    simp only [cut] at h
    split at h
    · rcases List.mem_cons.1 h with rfl | h
      · exact List.not_mem_nil
      · exact ih h
    next hc =>
      rcases hs : cut separator s with _ | ⟨first, rest⟩
      · exact absurd hs (cut_ne_nil separator s)
      · rw [hs] at h ih
        rcases List.mem_cons.1 h with rfl | h
        · simp [Ne.symm hc, ih List.mem_cons_self]
        · exact ih (List.mem_cons_of_mem _ h)

theorem join_eq_intercalate (separator : List Char) (pieces : List (List Char)) :
    join separator pieces = separator.intercalate pieces := by
  induction pieces with
  | nil => rfl
  | cons piece pieces ih =>
    cases pieces with
    | nil => simp [join]
    | cons next pieces => simp [join, ih]

theorem cut_intercalate {pieces : List (List Char)} (some : pieces ≠ [])
    (clean : ∀ piece ∈ pieces, separator ∉ piece) :
    cut separator ([separator].intercalate pieces) = pieces := by
  induction pieces with
  | nil => exact absurd rfl some
  | cons piece pieces ih =>
    have first := cut_of_not_mem (clean piece List.mem_cons_self)
    cases pieces with
    | nil => simpa using first
    | cons next pieces =>
      rw [List.intercalate_cons_cons, List.append_assoc, List.singleton_append, cut_append, first,
        ih (List.cons_ne_nil _ _) fun p hp => clean p (List.mem_cons_of_mem _ hp)]
      rfl

/-- Only the first piece may have separators in it, and is cut as well. -/
theorem cut_intercalate_cons (first : List Char) {pieces : List (List Char)} (some : pieces ≠ [])
    (clean : ∀ piece ∈ pieces, separator ∉ piece) :
    cut separator ([separator].intercalate (first :: pieces)) =
      cut separator first ++ pieces := by
  obtain ⟨next, pieces, rfl⟩ := List.exists_cons_of_ne_nil some
  rw [List.intercalate_cons_cons, List.append_assoc, List.singleton_append, cut_append,
    cut_intercalate some clean]

theorem cut_inj {s t : List Char} (same : cut separator s = cut separator t) : s = t := by
  rw [← join_cut separator s, same, join_cut]

theorem intercalate_sublist (separator : List Char) {fewer pieces : List (List Char)}
    (h : fewer.Sublist pieces) :
    (separator.intercalate fewer).Sublist (separator.intercalate pieces) := by
  induction h with
  | slnil => exact .refl _
  | @cons fewer pieces piece h ih =>
    rcases pieces with _ | ⟨next, pieces⟩
    · simp [List.sublist_nil.1 h]
    · rw [List.intercalate_cons_cons]
      exact ih.trans (List.sublist_append_right _ _)
  | @cons_cons fewer pieces piece h ih =>
    rcases pieces with _ | ⟨next, pieces⟩
    · simp [List.sublist_nil.1 h]
    · rcases fewer with _ | ⟨other, fewer⟩
      · simp [List.append_assoc]
      · simpa only [List.intercalate_cons_cons] using (List.Sublist.refl _).append ih

end Appliance.Text
