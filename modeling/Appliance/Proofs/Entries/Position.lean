import Appliance.Proofs.Entries.Values

/-! Lists of entries and where a spelling stands in them for the first time. Repeats are taken out
before the retractions act, so what a list comes to is known from these positions alone: a value is
left unless its retraction stands after it, and the values keep the order of their positions. -/
namespace Appliance

namespace Entry

theorem wellSpelled_retract (text : String) : (retract text).WellSpelled :=
  ⟨"~" ++ text, by simp [ofSpelling]⟩

theorem ne_retraction (spelling : String) : spelling ≠ "~" ++ spelling := fun same => by
  simpa using congrArg String.length same

theorem exists_spelling_iff {entry : Entry} {entries : List Entry} (spelled : entry.WellSpelled)
    (all : ∀ e ∈ entries, e.WellSpelled) :
    (∃ e ∈ entries, e.spelling = entry.spelling) ↔ entry ∈ entries := by
  constructor
  · rintro ⟨e, mem, same⟩
    exact (all e mem).eq_of_spelling spelled same ▸ mem
  · exact fun mem => ⟨entry, mem, rfl⟩

end Entry

namespace Entries

def firstOf (entries : List Entry) (spelling : String) : Option Nat :=
  entries.findIdx? (·.spelling = spelling)

def Precedes (entries : List Entry) (first second : String) : Prop :=
  ∃ i ∈ firstOf entries first, ∃ j ∈ firstOf entries second, i < j

instance (entries : List Entry) (first second : String) :
    Decidable (Precedes entries first second) :=
  inferInstanceAs (Decidable (∃ i ∈ firstOf entries first, ∃ j ∈ firstOf entries second, i < j))

variable {entry : Entry} {entries : List Entry} {a b : String}

theorem firstOf_cons (entry : Entry) (entries : List Entry) (spelling : String) :
    firstOf (entry :: entries) spelling =
      if entry.spelling = spelling then some 0 else (firstOf entries spelling).map (· + 1) := by
  simp [firstOf, List.findIdx?_cons]

theorem exists_firstOf_iff {spelling : String} :
    (∃ i, firstOf entries spelling = some i) ↔ ∃ e ∈ entries, e.spelling = spelling := by
  rw [← Option.isSome_iff_exists, firstOf, List.findIdx?_isSome]
  simp

theorem eq_of_firstOf {i : Nat} (first : firstOf entries a = some i)
    (second : firstOf entries b = some i) : a = b := by
  obtain ⟨bound, here, -⟩ := List.findIdx?_eq_some_iff_getElem.1 first
  obtain ⟨_, there, -⟩ := List.findIdx?_eq_some_iff_getElem.1 second
  exact (of_decide_eq_true here).symm.trans (of_decide_eq_true there)

theorem not_precedes_iff (listed : ∃ e ∈ entries, e.spelling = a) (other : a ≠ b) :
    ¬ Precedes entries a b ↔ (∀ e ∈ entries, e.spelling ≠ b) ∨ Precedes entries b a := by
  obtain ⟨i, first⟩ := exists_firstOf_iff.2 listed
  cases second : firstOf entries b with
  | none =>
    have absent : ∀ e ∈ entries, e.spelling ≠ b := fun e mem same => by
      obtain ⟨j, found⟩ := exists_firstOf_iff.2 ⟨e, mem, same⟩
      simp [second] at found
    exact iff_of_true (by simp [Precedes, second]) (Or.inl absent)
  | some j =>
    have present : ¬ ∀ e ∈ entries, e.spelling ≠ b := fun absent => by
      obtain ⟨e, mem, same⟩ := exists_firstOf_iff.1 ⟨j, second⟩
      exact absent e mem same
    have apart : i ≠ j := fun same => other (eq_of_firstOf first (same ▸ second))
    simp only [Precedes, first, second, Option.mem_some_iff, exists_eq_left', present, false_or]
    omega

theorem precedes_cons :
    Precedes (entry :: entries) a b ↔
      entry.spelling ≠ b ∧ (entry.spelling = a ∧ (∃ e ∈ entries, e.spelling = b) ∨
        entry.spelling ≠ a ∧ Precedes entries a b) := by
  rw [← exists_firstOf_iff]
  simp only [Precedes, firstOf_cons, Option.mem_def]
  by_cases second : entry.spelling = b
  · simp [second]
  · by_cases first : entry.spelling = a
    · subst first
      simp [second]
    · simp [first, second]

theorem precedes_filter {keep : Entry → Bool}
    (others : ∀ e ∈ entries, keep e = false → e.spelling ≠ a ∧ e.spelling ≠ b) :
    Precedes (entries.filter keep) a b ↔ Precedes entries a b := by
  induction entries with
  | nil => rfl
  | cons e entries ih =>
    have tail := ih fun x hx => others x (List.mem_cons_of_mem _ hx)
    cases kept : keep e with
    | true =>
      have listed : (∃ x ∈ entries.filter keep, x.spelling = b) ↔
          ∃ x ∈ entries, x.spelling = b := by
        constructor
        · rintro ⟨x, mem, same⟩
          exact ⟨x, (List.mem_filter.1 mem).1, same⟩
        · rintro ⟨x, mem, same⟩
          have stays : keep x = true := by
            by_contra gone
            exact (others x (List.mem_cons_of_mem _ mem) (Bool.not_eq_true _ ▸ gone)).2 same
          exact ⟨x, List.mem_filter.2 ⟨mem, stays⟩, same⟩
      rw [List.filter_cons_of_pos kept, precedes_cons, precedes_cons, listed, tail]
    | false =>
      obtain ⟨notFirst, notSecond⟩ := others e List.mem_cons_self kept
      rw [List.filter_cons_of_neg (by simp [kept]), tail, precedes_cons]
      simp [notFirst, notSecond]

theorem precedes_eraseDups : Precedes entries.eraseDups a b ↔ Precedes entries a b := by
  induction entries with
  | nil => rfl
  | cons e entries ih =>
    rw [List.eraseDups_cons, eraseDups_filter, precedes_cons, precedes_cons]
    refine and_congr_right fun notSecond => or_congr (and_congr_right fun _ => ?_)
      (and_congr_right fun notFirst => ?_)
    · constructor
      · rintro ⟨x, mem, same⟩
        exact ⟨x, List.mem_eraseDups.1 (List.mem_filter.1 mem).1, same⟩
      · rintro ⟨x, mem, same⟩
        have other : x ≠ e := fun equal => notSecond (equal ▸ same)
        exact ⟨x, List.mem_filter.2 ⟨List.mem_eraseDups.2 mem, by simpa using other⟩, same⟩
    · rw [← ih]
      -- What is filtered out repeats `e`, which has neither of the two spellings.
      refine precedes_filter fun x _ gone => ?_
      obtain rfl : x = e := by simpa using gone
      exact ⟨notFirst, notSecond⟩

theorem pairwise_precedes (distinct : (entries.map (·.spelling)).Nodup) :
    entries.Pairwise fun x y => Precedes entries x.spelling y.spelling := by
  induction entries with
  | nil => exact List.Pairwise.nil
  | cons e entries ih =>
    obtain ⟨fresh, distinct⟩ := List.nodup_cons.1 distinct
    have other : ∀ x ∈ entries, e.spelling ≠ x.spelling := fun x mem same =>
      fresh (List.mem_map.2 ⟨x, mem, same.symm⟩)
    refine List.pairwise_cons.2 ⟨fun y mem => ?_, (ih distinct).imp_of_mem fun hx hy before => ?_⟩
    · exact precedes_cons.2 ⟨other y mem, Or.inl ⟨rfl, y, mem, rfl⟩⟩
    · exact precedes_cons.2 ⟨other _ hy, Or.inr ⟨other _ hx, before⟩⟩

/-- Where no spelling repeats, an entry is left unless its retraction stands after it. -/
theorem mem_retract_iff_not_precedes (spelled : ∀ e ∈ entries, e.WellSpelled)
    (distinct : (entries.map (·.spelling)).Nodup) :
    entry ∈ retract entries ↔
      entry ∈ entries ∧ entry.isRetraction = false ∧
        ¬ Precedes entries entry.spelling ("~" ++ entry.spelling) := by
  induction entries with
  | nil => simp [retract]
  | cons e entries ih =>
    obtain ⟨fresh, distinct⟩ := List.nodup_cons.1 distinct
    have other : ∀ x ∈ entries, x.spelling ≠ e.spelling := fun x mem same =>
      fresh (List.mem_map.2 ⟨x, mem, same⟩)
    have tail := ih (fun x hx => spelled x (List.mem_cons_of_mem _ hx)) distinct
    have retracted : (∃ x ∈ entries, x.spelling = "~" ++ e.spelling) ↔
        .retract e.spelling ∈ entries :=
      Entry.exists_spelling_iff (Entry.wellSpelled_retract _)
        fun x hx => spelled x (List.mem_cons_of_mem _ hx)
    by_cases here : entry = e
    · subst here
      have absent : entry ∉ retract entries := fun mem => other _ (mem_of_mem_retract mem) rfl
      have marked := Entry.ne_retraction entry.spelling
      rw [precedes_cons, retracted, ← withdrawn_iff_mem other, retract]
      cases entry.isRetraction <;> cases withdrawn entry entries <;> simp [absent, marked]
    · have left : entry ∈ retract (e :: entries) ↔ entry ∈ retract entries := by
        rw [retract]
        split <;> simp [here]
      rw [left, tail, List.mem_cons, or_iff_right here]
      refine and_congr_right fun mem => and_congr_right fun _ => not_congr ?_
      have notRepeated := other entry mem
      rw [precedes_cons]
      by_cases retracts : e.spelling = "~" ++ entry.spelling
      · -- `e` is the only retraction, and it stands before the entry
        have nowhere : ¬ Precedes entries entry.spelling ("~" ++ entry.spelling) := by
          rintro ⟨_, _, j, found, _⟩
          obtain ⟨x, hx, same⟩ := exists_firstOf_iff.1 ⟨j, found⟩
          exact other x hx (same.trans retracts.symm)
        exact iff_of_false nowhere fun before => before.1 retracts
      · simp [retracts, Ne.symm notRepeated]

theorem nodup_spelling_eraseDups (spelled : ∀ e ∈ entries, e.WellSpelled) :
    (entries.eraseDups.map (·.spelling)).Nodup :=
  (nodup_eraseDups entries).map_on fun x hx y hy same =>
    (spelled x (List.mem_eraseDups.1 hx)).eq_of_spelling (spelled y (List.mem_eraseDups.1 hy)) same

section Settle

variable {lists : List (List Entry)}

theorem mem_layerDistinct_iff (spelled : ∀ e ∈ lists.flatten, e.WellSpelled) :
    entry ∈ layerDistinct lists ↔
      entry ∈ lists.flatten ∧ entry.isRetraction = false ∧
        ¬ Precedes lists.flatten entry.spelling ("~" ++ entry.spelling) := by
  have once : ∀ e ∈ lists.flatten.eraseDups, e.WellSpelled := fun e mem =>
    spelled e (List.mem_eraseDups.1 mem)
  rw [layerDistinct, mem_retract_iff_not_precedes once (nodup_spelling_eraseDups spelled),
    List.mem_eraseDups, precedes_eraseDups]

theorem plain_mem_settle_iff (spelled : ∀ e ∈ lists.flatten, e.WellSpelled) {text : String} :
    .plain text ∈ settle lists ↔
      .plain text ∈ lists.flatten ∧ ¬ Precedes lists.flatten text ("~" ++ text) ∧
        (.exclude text ∉ lists.flatten ∨
          Precedes lists.flatten ("!" ++ text) ("~!" ++ text)) := by
  have mark : "~" ++ ("!" ++ text) = "~!" ++ text := by
    rw [← String.append_assoc]
    rfl
  rw [settle, mem_exclude, mem_layerDistinct_iff spelled, mem_layerDistinct_iff spelled]
  simp only [Entry.isRetraction, Entry.isPlain, Entry.spelling, Entry.text, mark]
  tauto

theorem pairwise_settle (spelled : ∀ e ∈ lists.flatten, e.WellSpelled) :
    (settle lists).Pairwise fun x y => Precedes lists.flatten x.spelling y.spelling := by
  have listed : (settle lists).Sublist lists.flatten.eraseDups :=
    List.filter_sublist.trans (retract_sublist _)
  refine ((pairwise_precedes (nodup_spelling_eraseDups spelled)).imp ?_).sublist listed
  exact precedes_eraseDups.1

/-- What lists come to, in terms of where each spelling stands first in all of them together: the
values that are listed, that no retraction follows, and that are not excluded unless a retraction
follows the exclusion. They stand in the order of their positions, and each once. -/
theorem settle_lists_values_in_order (spelled : ∀ entries ∈ lists, ∀ e ∈ entries, e.WellSpelled) :
    let all := lists.flatten
    Values (settle lists) ∧
      ((settle lists).Pairwise fun x y => Precedes all x.spelling y.spelling) ∧
      ∀ text, .plain text ∈ settle lists ↔
        .plain text ∈ all ∧ ¬ Precedes all text ("~" ++ text) ∧
          (.exclude text ∉ all ∨ Precedes all ("!" ++ text) ("~!" ++ text)) := by
  intro all
  have together : ∀ e ∈ all, e.WellSpelled := by
    intro e mem
    obtain ⟨entries, list, inList⟩ := List.mem_flatten.1 mem
    exact spelled entries list e inList
  exact ⟨settle_values lists, pairwise_settle together, fun _ => plain_mem_settle_iff together⟩

theorem settle_lists_values_in_order_of_nested_marks :
    let lists : List (List Entry) :=
      [[.retract "c", .exclude "b", .plain "c", .plain "a", .exclude "d"],
        [.plain "b", .retract "!b", .plain "d", .plain "c", .retract "a", .plain "a", .exclude "b"]]
    (∀ entries ∈ lists, ∀ e ∈ entries, e.WellSpelled) ∧
      settle lists = [.plain "c", .plain "b"] ∧ Precedes lists.flatten "c" "b" ∧
      .plain "c" ∈ settle lists ∧ .plain "b" ∈ settle lists ∧ .plain "a" ∉ settle lists ∧
      .plain "d" ∉ settle lists := by
  intro lists
  have spelled : ∀ entries ∈ lists, ∀ e ∈ entries, e.WellSpelled := by decide
  have values : settle lists = [.plain "c", .plain "b"] := by decide
  obtain ⟨-, ordered, listed⟩ := settle_lists_values_in_order spelled
  refine ⟨spelled, values, ?_, ?_⟩
  · rw [values] at ordered
    exact List.rel_of_pairwise_cons ordered List.mem_cons_self
  · rw [listed, listed, listed, listed]
    decide

end Settle

end Entries
end Appliance
