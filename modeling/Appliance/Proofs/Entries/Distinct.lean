import Appliance.Proofs.Entries.Retraction

/-! Lists from which every entry but its first occurrence is taken out, and entries as they are read
from texts, of which no two share a spelling. -/
namespace Appliance

namespace Entry

/-- Is the entry what some text reads as? Every entry is, except for a value that itself starts with
a mark. -/
def WellSpelled (entry : Entry) : Prop := ∃ raw, ofSpelling raw = entry

theorem WellSpelled.ofSpelling_spelling {entry : Entry} (h : entry.WellSpelled) :
    ofSpelling entry.spelling = entry := by
  obtain ⟨raw, rfl⟩ := h
  rw [spelling_ofSpelling]

instance (entry : Entry) : Decidable entry.WellSpelled :=
  decidable_of_iff (ofSpelling entry.spelling = entry)
    ⟨fun same => ⟨_, same⟩, WellSpelled.ofSpelling_spelling⟩

theorem WellSpelled.eq_of_spelling {a b : Entry} (ha : a.WellSpelled) (hb : b.WellSpelled)
    (same : a.spelling = b.spelling) : a = b := by
  rw [← ha.ofSpelling_spelling, same, hb.ofSpelling_spelling]

end Entry

namespace Entries

section Lists

variable {α : Type} [DecidableEq α]

theorem eraseDups_filter (keep : α → Bool) :
    ∀ xs : List α, (xs.filter keep).eraseDups = xs.eraseDups.filter keep
  | [] => rfl
  | x :: xs => by
    have rest := eraseDups_filter keep (xs.filter fun y => !y == x)
    rw [List.filter_comm] at rest
    by_cases kept : keep x = true
    · rw [List.filter_cons_of_pos kept, List.eraseDups_cons, List.eraseDups_cons,
        List.filter_cons_of_pos kept, rest]
    · have aside : (xs.filter keep).filter (fun y => !y == x) = xs.filter keep := by
        refine List.filter_eq_self.2 fun y hy => ?_
        have : y ≠ x := fun same => kept (same ▸ (List.mem_filter.1 hy).2)
        simpa using this
      rw [List.filter_cons_of_neg kept, List.eraseDups_cons, List.filter_cons_of_neg kept, ← rest,
        aside]
termination_by xs => xs.length
decreasing_by exact Nat.lt_succ_of_le (List.length_filter_le _ _)

theorem nodup_eraseDups (xs : List α) : xs.eraseDups.Nodup := by
  induction xs with
  | nil => exact List.nodup_nil
  | cons x xs ih =>
    rw [List.eraseDups_cons, eraseDups_filter, List.nodup_cons]
    exact ⟨by simp, ih.filter _⟩

theorem eraseDups_eq_self {xs : List α} (distinct : xs.Nodup) : xs.eraseDups = xs := by
  induction xs with
  | nil => rfl
  | cons x xs ih =>
    have ⟨fresh, distinct⟩ := List.nodup_cons.1 distinct
    have others : xs.filter (fun y => !y == x) = xs := by
      refine List.filter_eq_self.2 fun y hy => ?_
      have : y ≠ x := fun same => fresh (same ▸ hy)
      simpa using this
    rw [List.eraseDups_cons, others, ih distinct]

theorem eraseDups_sublist (xs : List α) : xs.eraseDups.Sublist xs := by
  induction xs with
  | nil => exact List.Sublist.slnil
  | cons x xs ih =>
    rw [List.eraseDups_cons, eraseDups_filter]
    exact (List.filter_sublist.trans ih).cons_cons x

theorem eraseDups_append_eq (xs ys : List α) :
    (xs ++ ys).eraseDups = xs.eraseDups ++ ys.eraseDups.filter (· ∉ xs) := by
  rw [List.eraseDups_append, List.removeAll, eraseDups_filter]
  simp

end Lists

theorem nodup_spelling_of_isPlain {entries : List Entry} (plain : ∀ e ∈ entries, e.isPlain = true)
    (distinct : entries.Nodup) : (entries.map (·.spelling)).Nodup := by
  refine distinct.map_on fun a ha b hb same => ?_
  rw [Entry.eq_plain_of_isPlain (plain a ha), Entry.eq_plain_of_isPlain (plain b hb)] at same ⊢
  exact congrArg Entry.plain same

end Entries
end Appliance
