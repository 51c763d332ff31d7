import Appliance.Entries
import Mathlib.Data.List.Nodup

/-! Which entries the retractions of a list leave. What becomes of an entry is decided by the first
later one that retracts its spelling or repeats it; the others between them are passed over. So a
list can be cut in two, or thinned out, without a change to what the rest comes to. -/
namespace Appliance

namespace Entry

def decides (next : Entry) (spelling : String) : Bool :=
  next = .retract spelling || next.spelling = spelling

theorem eq_plain_of_isPlain {entry : Entry} (h : entry.isPlain = true) :
    entry = .plain entry.text := by
  cases entry <;> simp_all [isPlain, text]

theorem isRetraction_of_isPlain {entry : Entry} (h : entry.isPlain = true) :
    entry.isRetraction = false := by
  cases entry <;> simp_all [isPlain, isRetraction]

theorem spelling_of_isPlain {entry : Entry} (h : entry.isPlain = true) :
    entry.spelling = entry.text := by
  rw [eq_plain_of_isPlain h]
  rfl

end Entry

namespace Entries

theorem withdrawn_eq_find? (entry : Entry) (rest : List Entry) :
    withdrawn entry rest =
      decide (rest.find? (·.decides entry.spelling) = some (.retract entry.spelling)) := by
  induction rest with
  | nil => simp [withdrawn]
  | cons next rest ih =>
    by_cases retracts : next = .retract entry.spelling
    · simp [withdrawn, Entry.decides, retracts]
    · by_cases repeats : next.spelling = entry.spelling
      · simp [withdrawn, Entry.decides, retracts, repeats]
      · rw [withdrawn, if_neg retracts, if_neg repeats, ih, List.find?_cons_of_neg]
        simp [Entry.decides, retracts, repeats]

theorem withdrawn_append {entry : Entry} {front rest : List Entry}
    (h : ∀ e ∈ front, e.decides entry.spelling = false) :
    withdrawn entry (front ++ rest) = withdrawn entry rest := by
  have none : front.find? (·.decides entry.spelling) = none := by simpa using h
  rw [withdrawn_eq_find?, List.find?_append, none, Option.none_or, withdrawn_eq_find?]

theorem withdrawn_filter {entry : Entry} {rest : List Entry} {keep : Entry → Bool}
    (h : ∀ e ∈ rest, keep e = false → e.decides entry.spelling = false) :
    withdrawn entry (rest.filter keep) = withdrawn entry rest := by
  induction rest with
  | nil => rfl
  | cons next rest ih =>
    have tail := ih fun e he => h e (List.mem_cons_of_mem _ he)
    cases kept : keep next with
    | true => simp only [List.filter_cons_of_pos kept, withdrawn, tail]
    | false =>
      have aside : ∀ e ∈ [next], e.decides entry.spelling = false := by
        simpa using h next List.mem_cons_self kept
      rw [List.filter_cons_of_neg (by simp [kept]), tail]
      exact (withdrawn_append aside : withdrawn entry ([next] ++ rest) = _).symm

theorem not_withdrawn_of_not_mem {entry : Entry} {rest : List Entry}
    (h : .retract entry.spelling ∉ rest) : withdrawn entry rest = false := by
  rw [withdrawn_eq_find?, decide_eq_false_iff_not]
  exact fun found => h (List.mem_of_find?_eq_some found)

theorem withdrawn_iff_mem {entry : Entry} {rest : List Entry}
    (h : ∀ e ∈ rest, e.spelling ≠ entry.spelling) :
    withdrawn entry rest = true ↔ .retract entry.spelling ∈ rest := by
  induction rest with
  | nil => simp [withdrawn]
  | cons next rest ih =>
    have tail := ih fun e he => h e (List.mem_cons_of_mem _ he)
    have fresh := h next List.mem_cons_self
    by_cases retracts : next = .retract entry.spelling
    · simp [withdrawn, retracts]
    · simp [withdrawn, retracts, fresh, tail, Ne.symm retracts]

theorem retract_sublist (entries : List Entry) : (retract entries).Sublist entries := by
  induction entries with
  | nil => exact List.Sublist.slnil
  | cons e rest ih =>
    simp only [retract]
    split
    · exact ih.cons e
    · exact ih.cons_cons e

theorem mem_of_mem_retract {entry : Entry} {entries : List Entry} (h : entry ∈ retract entries) :
    entry ∈ entries :=
  (retract_sublist entries).subset h

theorem retract_eq_self {entries : List Entry} (h : ∀ e ∈ entries, e.isRetraction = false) :
    retract entries = entries := by
  induction entries with
  | nil => rfl
  | cons e rest ih =>
    have stays : withdrawn e rest = false :=
      not_withdrawn_of_not_mem fun mem => by
        simpa [Entry.isRetraction] using h _ (List.mem_cons_of_mem _ mem)
    simp [retract, h e List.mem_cons_self, stays, ih fun x hx => h x (List.mem_cons_of_mem _ hx)]

theorem retract_retract (entries : List Entry) : retract (retract entries) = retract entries :=
  retract_eq_self (retract_no_retraction entries)

/-- What stands in front changes nothing about what is left of the rest. -/
theorem retract_suffix (front rest : List Entry) : retract rest <:+ retract (front ++ rest) := by
  induction front with
  | nil => exact List.suffix_refl _
  | cons e front ih =>
    simp only [List.cons_append, retract]
    split
    · exact ih
    · exact ih.trans (List.suffix_cons _ _)

theorem mem_retract_of_not_mem {entry : Entry} {front rest : List Entry}
    (plain : entry.isRetraction = false) (h : .retract entry.spelling ∉ rest) :
    entry ∈ retract (front ++ entry :: rest) := by
  have here : entry ∈ retract (entry :: rest) := by
    simp [retract, plain, not_withdrawn_of_not_mem h]
  exact (retract_suffix front (entry :: rest)).subset here

theorem withdrawn_append_of_withdrawn {entry : Entry} {front : List Entry}
    (h : withdrawn entry front = true) (rest : List Entry) :
    withdrawn entry (front ++ rest) = true := by
  rw [withdrawn_eq_find?, decide_eq_true_iff] at h ⊢
  rw [List.find?_append, h, Option.some_or]

theorem mem_retract_or_of_mem_append {entry : Entry} {front rest : List Entry}
    (h : entry ∈ retract (front ++ rest)) : entry ∈ retract front ∨ entry ∈ retract rest := by
  induction front with
  | nil => exact Or.inr h
  | cons e front ih =>
    rw [List.cons_append, retract] at h
    split at h
    · rcases ih h with left | right
      · refine Or.inl ?_
        rw [retract]
        split
        · exact left
        · exact List.mem_cons_of_mem _ left
      · exact Or.inr right
    · next kept =>
      have alone : (e.isRetraction || withdrawn e front) = false := by
        simp only [Bool.or_eq_true, not_or, Bool.not_eq_true] at kept
        refine Bool.or_eq_false_iff.2 ⟨kept.1, ?_⟩
        by_contra gone
        exact Bool.false_ne_true (kept.2.symm.trans
          (withdrawn_append_of_withdrawn (Bool.not_eq_false _ ▸ gone) rest))
      rw [retract, alone, if_neg Bool.false_ne_true]
      rcases List.mem_cons.1 h with rfl | h
      · exact Or.inl List.mem_cons_self
      · exact (ih h).imp_left (List.mem_cons_of_mem _)

/-- Of a list in front that holds every spelling once, the rest takes out what it retracts. -/
theorem retract_append {front rest : List Entry} (plain : ∀ e ∈ front, e.isRetraction = false)
    (distinct : (front.map (·.spelling)).Nodup) :
    retract (front ++ rest) = front.filter (!withdrawn · rest) ++ retract rest := by
  induction front with
  | nil => rfl
  | cons e front ih =>
    have ⟨fresh, distinct⟩ := List.nodup_cons.1 distinct
    have others : ∀ x ∈ front, x.decides e.spelling = false := by
      intro x hx
      have notRetraction := plain x (List.mem_cons_of_mem _ hx)
      have notRepeated : x.spelling ≠ e.spelling := fun same =>
        fresh (List.mem_map.2 ⟨x, hx, same⟩)
      cases x <;> simp_all [Entry.decides, Entry.isRetraction]
    have tail := ih (fun x hx => plain x (List.mem_cons_of_mem _ hx)) distinct
    simp only [List.cons_append, retract, plain e List.mem_cons_self, withdrawn_append others,
      Bool.false_or, tail]
    cases held : withdrawn e rest <;> simp [held]

/-- Retracting commutes with taking entries out that decide nothing about those that stay. -/
theorem retract_filter {entries : List Entry} {keep : Entry → Bool}
    (h : ∀ e ∈ entries, keep e = true → ∀ x ∈ entries, keep x = false →
      x.decides e.spelling = false) :
    retract (entries.filter keep) = (retract entries).filter keep := by
  induction entries with
  | nil => rfl
  | cons e rest ih =>
    have tail := ih fun a ha kept x hx =>
      h a (List.mem_cons_of_mem _ ha) kept x (List.mem_cons_of_mem _ hx)
    cases kept : keep e with
    | true =>
      have same : withdrawn e (rest.filter keep) = withdrawn e rest :=
        withdrawn_filter fun x hx gone =>
          h e List.mem_cons_self kept x (List.mem_cons_of_mem _ hx) gone
      simp only [List.filter_cons_of_pos kept, retract, same, tail]
      split
      · rfl
      · rw [List.filter_cons_of_pos kept]
    | false =>
      rw [List.filter_cons_of_neg (by simp [kept]), tail, retract]
      split
      · rfl
      · rw [List.filter_cons_of_neg (by simp [kept])]

end Entries
end Appliance
