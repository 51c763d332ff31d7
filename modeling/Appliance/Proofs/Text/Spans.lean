import Appliance.Text.Blank
import Mathlib.Data.List.TakeWhile

/-! Where a run of characters of one kind ends, and texts with the blanks on either side of them. -/
namespace Appliance.Text

variable {isKind : Char → Bool} {s rest : List Char}

theorem takeWhile_eq_nil (first : ∀ c ∈ s.head?, isKind c = false) : s.takeWhile isKind = [] := by
  cases s with
  | nil => rfl
  | cons c s => exact List.takeWhile_cons_of_neg (by simp [first c rfl])

theorem dropWhile_eq_self (first : ∀ c ∈ s.head?, isKind c = false) : s.dropWhile isKind = s := by
  cases s with
  | nil => rfl
  | cons c s => exact List.dropWhile_cons_of_neg (by simp [first c rfl])

theorem head?_dropWhile (s : List Char) :
    ∀ c ∈ (s.dropWhile isKind).head?, isKind c = false := by
  intro c head
  have first := List.head?_dropWhile_not isKind s
  rw [head] at first
  simpa using first

theorem takeWhile_append (all : ∀ c ∈ s, isKind c = true)
    (ends : ∀ c ∈ rest.head?, isKind c = false) : (s ++ rest).takeWhile isKind = s := by
  rw [List.takeWhile_append_of_pos all, takeWhile_eq_nil ends, List.append_nil]

theorem dropWhile_append (all : ∀ c ∈ s, isKind c = true)
    (ends : ∀ c ∈ rest.head?, isKind c = false) : (s ++ rest).dropWhile isKind = rest := by
  rw [List.dropWhile_append_of_pos all, dropWhile_eq_self ends]

variable {s t : List Char}

/-- Is the second text all of the first one but the blanks on either side? -/
structure Trimmed (s t : List Char) : Prop where
  margins : ∃ before after, s = before ++ t ++ after ∧
    (∀ c ∈ before, isBlank c = true) ∧ ∀ c ∈ after, isBlank c = true
  first : ∀ c ∈ t.head?, isBlank c = false
  last : ∀ c ∈ t.getLast?, isBlank c = false

theorem Trimmed.of_no_margins (first : ∀ c ∈ s.head?, isBlank c = false)
    (last : ∀ c ∈ s.getLast?, isBlank c = false) : Trimmed s s :=
  ⟨⟨[], [], by simp⟩, first, last⟩

theorem eq_trimEnd_append (s : List Char) :
    s = trimEnd s ++ (s.reverse.takeWhile isBlank).reverse := by
  rw [trimEnd, ← List.reverse_append, List.takeWhile_append_dropWhile, List.reverse_reverse]

theorem trimmed_trim (s : List Char) : Trimmed s (trim s) where
  margins := by
    refine ⟨s.takeWhile isBlank, ((trimStart s).reverse.takeWhile isBlank).reverse, ?_, ?_, ?_⟩
    · rw [List.append_assoc, trim, ← eq_trimEnd_append, trimStart, List.takeWhile_append_dropWhile]
    · exact fun c mem => List.mem_takeWhile_imp mem
    · exact fun c mem => List.mem_takeWhile_imp (List.mem_reverse.1 mem)
  first c head := by
    refine head?_dropWhile s c ?_
    rw [← trimStart, eq_trimEnd_append (trimStart s), ← trim, List.head?_append, head]
    rfl
  last c head := by
    rw [trim, trimEnd, List.getLast?_reverse] at head
    exact head?_dropWhile _ c head

theorem Trimmed.trim_eq (trimmed : Trimmed s t) : trim s = t := by
  obtain ⟨before, after, rfl, blankBefore, blankAfter⟩ := trimmed.margins
  rw [trim, trimStart, List.append_assoc, List.dropWhile_append_of_pos blankBefore]
  by_cases empty : t = []
  · subst empty
    simp [trimEnd, List.dropWhile_eq_nil_iff.2 blankAfter]
  · have starts : ∀ c ∈ (t ++ after).head?, isBlank c = false := by
      obtain ⟨d, more, rfl⟩ := List.exists_cons_of_ne_nil empty
      exact trimmed.first
    have ends : ∀ c ∈ t.reverse.head?, isBlank c = false := by
      rw [List.head?_reverse]
      exact trimmed.last
    rw [dropWhile_eq_self starts, trimEnd, List.reverse_append,
      dropWhile_append (fun c mem => blankAfter c (List.mem_reverse.1 mem)) ends,
      List.reverse_reverse]

end Appliance.Text
