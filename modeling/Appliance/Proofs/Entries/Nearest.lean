import Appliance.Proofs.Entries.Retraction
import Mathlib.Combinatorics.Enumerative.DoubleCounting
import Mathlib.Data.Fintype.Basic
import Mathlib.Data.List.FinRange

/-! Retractions by position. A retraction looks back for the nearest entry of the spelling it names,
in the list as it was given, and takes that one out. So the positions that are left can be told from
the list alone, and a retraction costs the list no more than itself and one entry. -/
namespace Appliance.Entries

variable {entries : List Entry}

/-- Does the entry at position `k` withdraw the one at position `j`? It retracts the spelling of
that one, which no entry between them has. -/
def Withdraws (entries : List Entry) (k j : Fin entries.length) : Prop :=
  j < k ∧ entries[k] = .retract entries[j].spelling ∧
    ∀ i, j < i → i < k → entries[i].spelling ≠ entries[j].spelling

instance (entries : List Entry) (k j : Fin entries.length) : Decidable (Withdraws entries k j) :=
  inferInstanceAs (Decidable (_ ∧ _ ∧ _))

def Left (entries : List Entry) (j : Fin entries.length) : Prop :=
  entries[j].isRetraction = false ∧ ∀ k, ¬ Withdraws entries k j

instance (entries : List Entry) : DecidablePred (Left entries) := fun _ =>
  inferInstanceAs (Decidable (_ ∧ _))

theorem Withdraws.unique {k i j : Fin entries.length} (first : Withdraws entries k i)
    (second : Withdraws entries k j) : i = j := by
  have same : entries[i].spelling = entries[j].spelling :=
    Entry.retract.inj (first.2.1.symm.trans second.2.1)
  rcases lt_trichotomy i j with less | equal | less
  · exact absurd same.symm (first.2.2 j less second.1)
  · exact equal
  · exact absurd same (second.2.2 i less first.1)

/-! One more entry in front. -/

section Front

variable {entry : Entry} {rest : List Entry}

theorem withdrawn_iff_exists :
    withdrawn entry rest = true ↔ ∃ k : Fin rest.length,
      rest[k] = .retract entry.spelling ∧ ∀ i < k, rest[i].spelling ≠ entry.spelling := by
  induction rest with
  | nil => simp [withdrawn]
  | cons next rest ih =>
    refine Iff.trans ?_ Fin.exists_fin_succ.symm
    by_cases retracts : next = .retract entry.spelling
    · simp [withdrawn, retracts]
    · by_cases repeats : next.spelling = entry.spelling
      · simp [withdrawn, retracts, repeats, Fin.forall_fin_succ]
      · rw [withdrawn, if_neg retracts, if_neg repeats, ih]
        simp [retracts, repeats, Fin.forall_fin_succ]

theorem withdraws_zero {k : Fin rest.length} :
    Withdraws (entry :: rest) k.succ 0 ↔
      rest[k] = .retract entry.spelling ∧ ∀ i < k, rest[i].spelling ≠ entry.spelling := by
  simp [Withdraws, Fin.forall_fin_succ]

theorem withdraws_succ {k j : Fin rest.length} :
    Withdraws (entry :: rest) k.succ j.succ ↔ Withdraws rest k j := by
  simp [Withdraws, Fin.forall_fin_succ]

theorem not_withdraws_of_zero {j : Fin (rest.length + 1)} :
    ¬ Withdraws (entry :: rest) (0 : Fin (rest.length + 1)) j :=
  fun h => Fin.not_lt_zero j h.1

theorem left_zero :
    Left (entry :: rest) (0 : Fin (rest.length + 1)) ↔
      (entry.isRetraction || withdrawn entry rest) = false := by
  have later : (∀ k, ¬ Withdraws (entry :: rest) k (0 : Fin (rest.length + 1))) ↔
      withdrawn entry rest = false := by
    rw [← Bool.not_eq_true, withdrawn_iff_exists, not_exists]
    refine Fin.forall_fin_succ.trans ?_
    simp only [withdraws_zero, not_withdraws_of_zero, not_false_eq_true, true_and]
  rw [Bool.or_eq_false_iff, ← later]
  rfl

theorem left_succ {j : Fin rest.length} : Left (entry :: rest) j.succ ↔ Left rest j := by
  have later : (∀ k, ¬ Withdraws (entry :: rest) k j.succ) ↔ ∀ k, ¬ Withdraws rest k j := by
    refine Fin.forall_fin_succ.trans ?_
    simp only [withdraws_succ, not_withdraws_of_zero, not_false_eq_true, true_and]
  exact and_congr_right fun _ => later

end Front

theorem retract_eq_left (entries : List Entry) :
    retract entries = ((List.finRange entries.length).filter (Left entries ·)).map entries.get := by
  induction entries with
  | nil => rfl
  | cons entry rest ih =>
    have others : ((List.finRange rest.length).map Fin.succ).filter (Left (entry :: rest) ·) =
        ((List.finRange rest.length).filter (Left rest ·)).map Fin.succ := by
      rw [List.filter_map]
      simp only [Function.comp_def, left_succ]
    have positions : List.finRange (entry :: rest).length =
        (0 : Fin (rest.length + 1)) :: (List.finRange rest.length).map Fin.succ :=
      List.finRange_succ
    rw [positions, retract, ih, List.filter_cons, others]
    cases gone : entry.isRetraction || withdrawn entry rest with
    | true =>
      have notLeft : ¬ Left (entry :: rest) (0 : Fin (rest.length + 1)) := by simp [left_zero, gone]
      rw [if_pos rfl, if_neg (by simpa using notLeft), List.map_map]
      rfl
    | false =>
      have left : Left (entry :: rest) (0 : Fin (rest.length + 1)) := left_zero.2 gone
      rw [if_neg Bool.false_ne_true, if_pos (by simpa using left), List.map_cons, List.map_map]
      rfl

/-! How many entries are left. -/

theorem length_retract (entries : List Entry) :
    (retract entries).length = (Finset.univ.filter (Left entries)).card := by
  rw [retract_eq_left, List.length_map]
  rfl

theorem countP_eq_card (entries : List Entry) (kind : Entry → Bool) :
    entries.countP kind =
      (Finset.univ.filter fun k : Fin entries.length => kind entries[k]).card := by
  conv_lhs => rw [← List.map_get_finRange entries, List.countP_map, List.countP_eq_length_filter]
  refine (congrArg List.length (List.filter_congr fun k _ => ?_)).trans rfl
  simp

theorem card_withdrawn_le (entries : List Entry) :
    (Finset.univ.filter fun j => ∃ k, Withdraws entries k j).card ≤
      entries.countP Entry.isRetraction := by
  rw [countP_eq_card]
  refine Finset.card_le_card_of_forall_subsingleton (fun j k => Withdraws entries k j) ?_ ?_
  · intro j mem
    obtain ⟨k, withdraws⟩ := (Finset.mem_filter.1 mem).2
    refine ⟨k, Finset.mem_filter.2 ⟨Finset.mem_univ k, ?_⟩, withdraws⟩
    rw [withdraws.2.1]
    rfl
  · intro k _ i first j second
    exact first.2.unique second.2

theorem length_le_retract_add (entries : List Entry) :
    entries.length ≤ (retract entries).length + 2 * entries.countP Entry.isRetraction := by
  -- A position is left, or holds a retraction, or is withdrawn by one.
  have covered : (Finset.univ : Finset (Fin entries.length)) ⊆
      Finset.univ.filter (Left entries) ∪
        ((Finset.univ.filter fun k : Fin entries.length => entries[k].isRetraction) ∪
          Finset.univ.filter fun j => ∃ k, Withdraws entries k j) := by
    intro j _
    by_cases isRetraction : entries[j].isRetraction = true
    · simp_all
    · by_cases gone : ∃ k, Withdraws entries k j
      · simp [gone]
      · have left : Left entries j := ⟨Bool.not_eq_true _ ▸ isRetraction, not_exists.1 gone⟩
        simp [left]
  have total := (Finset.card_le_card covered).trans <|
    (Finset.card_union_le _ _).trans (Nat.add_le_add_left (Finset.card_union_le _ _) _)
  rw [Finset.card_univ, Fintype.card_fin, ← length_retract, ← countP_eq_card] at total
  have single := card_withdrawn_le entries
  omega

theorem retract_length_add_le (entries : List Entry) :
    (retract entries).length + entries.countP Entry.isRetraction ≤ entries.length := by
  have values : (retract entries).countP (!·.isRetraction) = (retract entries).length := by
    rw [List.countP_eq_length]
    simpa using retract_no_retraction entries
  have fewer := (retract_sublist entries).countP_le (p := (!·.isRetraction))
  have all := List.length_eq_countP_add_countP Entry.isRetraction (l := entries)
  simp only [Bool.not_eq_true, Bool.decide_eq_false] at all
  omega

/-- Retracting leaves, in their order, the entries that are no retraction and that no later
retraction withdraws. So nothing is left to retract, and the list gets shorter by at least one and
at most two entries for each retraction. -/
theorem retract_leaves_positions (entries : List Entry) :
    retract entries =
        ((List.finRange entries.length).filter fun j =>
          entries[j].isRetraction = false ∧ ∀ k, ¬ Withdraws entries k j).map entries.get ∧
      retract (retract entries) = retract entries ∧
      (∀ e ∈ retract entries, e.isRetraction = false) ∧
      entries.length ≤ (retract entries).length + 2 * entries.countP Entry.isRetraction ∧
      (retract entries).length + entries.countP Entry.isRetraction ≤ entries.length :=
  ⟨retract_eq_left entries, retract_retract entries, retract_no_retraction entries,
    length_le_retract_add entries, retract_length_add_le entries⟩

example :
    retract [.retract "a", .plain "x", .exclude "y", .plain "x", .retract "x", .retract "x",
      .retract "!y", .retract "~x"] = [.plain "x"] := by decide

end Appliance.Entries
