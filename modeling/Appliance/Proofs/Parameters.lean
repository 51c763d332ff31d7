import Appliance.Data.Ascending
import Mathlib.Data.List.Induction
import Mathlib.Tactic.SplitIfs

/-! Maps kept in ascending order: what is put in is there, a map is rebuilt from its own pairs, and
what a map holds already may be put in again. -/
namespace Appliance

namespace Ascending

variable {α : Type} {pairs done : List (String × α)}

theorem mem_insert_self (name : String) (value : α) (pairs : List (String × α)) :
    (name, value) ∈ insert name value pairs := by
  induction pairs with
  | nil => exact List.mem_singleton_self _
  | cons p rest ih =>
    simp only [insert]
    split_ifs
    · exact List.mem_cons_self
    · exact List.mem_cons_self
    · exact List.mem_cons_of_mem _ ih

theorem mem_insert_of_ne {name : String} {value : α} {pair : String × α} (other : pair.1 ≠ name)
    (h : pair ∈ pairs) : pair ∈ insert name value pairs := by
  induction pairs with
  | nil => simp at h
  | cons p rest ih =>
    simp only [insert]
    split_ifs with before same
    · exact List.mem_cons_of_mem _ h
    · rcases List.mem_cons.1 h with rfl | h
      · exact absurd same.symm other
      · exact List.mem_cons_of_mem _ h
    · rcases List.mem_cons.1 h with rfl | h
      · exact List.mem_cons_self
      · exact List.mem_cons_of_mem _ (ih h)

theorem lookup_insert (name : String) (value : α) (pairs : List (String × α)) (other : String) :
    (insert name value pairs).lookup other =
      if other = name then some value else pairs.lookup other := by
  induction pairs with
  | nil => by_cases same : other = name <;> simp [insert, List.lookup_cons, beq_false_of_ne, same]
  | cons pair pairs ih =>
    by_cases same : other = name
    · subst same
      rw [if_pos rfl] at ih ⊢
      rw [insert]
      split_ifs with before equal
      · exact List.lookup_cons_self
      · exact List.lookup_cons_self
      · rw [List.lookup_cons, beq_false_of_ne equal, ih]
    · rw [if_neg same] at ih ⊢
      rw [insert]
      split_ifs with before equal
      · rw [List.lookup_cons, beq_false_of_ne same]
      · rw [List.lookup_cons, List.lookup_cons, beq_false_of_ne same, ← equal, beq_false_of_ne same]
      · rw [List.lookup_cons, List.lookup_cons, ih]

theorem insert_eq_self {name : String} {value : α} (ordered : Ordered pairs)
    (h : (name, value) ∈ pairs) : insert name value pairs = pairs := by
  induction pairs with
  | nil => simp at h
  | cons p rest ih =>
    have ⟨first, tail⟩ := List.pairwise_cons.1 ordered
    rcases List.mem_cons.1 h with rfl | h
    · rw [insert, if_neg (String.lt_irrefl _), if_pos rfl]
    · have after := first _ h
      have ne : name ≠ p.1 := fun same => String.lt_irrefl _ (same ▸ after)
      rw [insert, if_neg (String.lt_asymm after), if_neg ne, ih tail h]

theorem insert_eq_append {name : String} {value : α} (after : ∀ p ∈ pairs, p.1 < name) :
    insert name value pairs = pairs ++ [(name, value)] := by
  induction pairs with
  | nil => rfl
  | cons p rest ih =>
    have less := after p List.mem_cons_self
    have ne : name ≠ p.1 := fun same => String.lt_irrefl _ (same ▸ less)
    rw [insert, if_neg (String.lt_asymm less), if_neg ne,
      ih fun q hq => after q (List.mem_cons_of_mem _ hq), List.cons_append]

theorem ofPairs_append (front rest : List (String × α)) :
    ofPairs (front ++ rest) =
      rest.foldl (fun done pair => insert pair.1 pair.2 done) (ofPairs front) :=
  List.foldl_append

theorem ofPairs_eq_self (ordered : Ordered pairs) : ofPairs pairs = pairs := by
  induction pairs using List.reverseRecOn with
  | nil => rfl
  | append_singleton front pair ih =>
    have ⟨before, _, between⟩ := List.pairwise_append.1 ordered
    rw [ofPairs_append, ih before]
    exact insert_eq_append fun p hp => between p hp pair List.mem_cons_self

theorem foldl_insert_eq_self (ordered : Ordered done) (h : ∀ p ∈ pairs, p ∈ done) :
    pairs.foldl (fun done pair => insert pair.1 pair.2 done) done = done := by
  induction pairs with
  | nil => rfl
  | cons p rest ih =>
    rw [List.foldl_cons, insert_eq_self ordered (h p List.mem_cons_self)]
    exact ih fun q hq => h q (List.mem_cons_of_mem _ hq)

theorem mem_foldl_insert {pair : String × α} (h : pair ∈ done ∧ (∀ p ∈ pairs, p.1 ≠ pair.1) ∨
    pair ∈ pairs) (ordered : Ordered pairs) :
    pair ∈ pairs.foldl (fun done pair => insert pair.1 pair.2 done) done := by
  induction pairs generalizing done with
  | nil => simpa using h
  | cons p rest ih =>
    have ⟨first, tail⟩ := List.pairwise_cons.1 ordered
    refine ih ?_ tail
    rcases h with ⟨mem, others⟩ | mem
    · have ne := others p List.mem_cons_self
      exact Or.inl ⟨mem_insert_of_ne (Ne.symm ne) mem,
        fun q hq => others q (List.mem_cons_of_mem _ hq)⟩
    · rcases List.mem_cons.1 mem with rfl | mem
      · exact Or.inl ⟨mem_insert_self _ _ _,
          fun q hq same => String.lt_irrefl _ (same ▸ first q hq)⟩
      · exact Or.inr mem

theorem insert_perm {name : String} {value : α} (fresh : name ∉ pairs.map (·.1)) :
    (insert name value pairs).Perm ((name, value) :: pairs) := by
  induction pairs with
  | nil => exact .refl _
  | cons p rest ih =>
    have ⟨other, later⟩ := List.ne_and_not_mem_of_not_mem_cons fresh
    simp only [insert, if_neg other]
    split_ifs
    · exact .refl _
    · exact ((ih later).cons p).trans (.swap _ _ _)

theorem ofPairs_perm (distinct : (pairs.map (·.1)).Nodup) : (ofPairs pairs).Perm pairs := by
  induction pairs using List.reverseRecOn with
  | nil => exact .refl _
  | append_singleton front pair ih =>
    rw [List.map_append, List.nodup_append] at distinct
    have ⟨before, _, apart⟩ := distinct
    have kept := ih before
    have fresh : pair.1 ∉ (ofPairs front).map (·.1) := fun mem =>
      apart _ ((kept.map _).mem_iff.1 mem) _ List.mem_cons_self rfl
    rw [ofPairs_append]
    exact (insert_perm fresh).trans
      ((kept.cons pair).trans (List.perm_append_singleton pair front).symm)

theorem eq_of_perm {a b : List (String × α)} (first : Ordered a) (second : Ordered b)
    (perm : a.Perm b) : a = b :=
  perm.eq_of_pairwise (fun _ _ _ _ less more => absurd more (String.lt_asymm less)) first second

/-- The order of pairs with distinct names makes no difference. -/
theorem ofPairs_congr {a b : List (String × α)} (perm : a.Perm b)
    (distinct : (a.map (·.1)).Nodup) : ofPairs a = ofPairs b := by
  have others : (b.map (·.1)).Nodup := (perm.map _).nodup_iff.1 distinct
  exact eq_of_perm (ordered_ofPairs a) (ordered_ofPairs b)
    ((ofPairs_perm distinct).trans (perm.trans (ofPairs_perm others).symm))
end Ascending

namespace Parameters

theorem eq_of_pairs {a b : Parameters} (same : a.pairs = b.pairs) : a = b := by
  cases a
  cases b
  cases same
  rfl

theorem ofPairs_pairs (map : Parameters) : ofPairs map.pairs = map :=
  eq_of_pairs (Ascending.ofPairs_eq_self map.ordered)

theorem pairs_layer (base upper : Parameters) :
    (layer [base, upper]).pairs =
      upper.pairs.foldl (fun done pair => Ascending.insert pair.1 pair.2 done) base.pairs := by
  have flat : [base, upper].flatMap (·.pairs) = base.pairs ++ upper.pairs := by simp
  calc (layer [base, upper]).pairs
      = Ascending.ofPairs ([base, upper].flatMap (·.pairs)) := rfl
    _ = _ := by rw [flat, Ascending.ofPairs_append, Ascending.ofPairs_eq_self base.ordered]

theorem mem_layer {base upper : Parameters} {pair : String × String} (h : pair ∈ upper.pairs) :
    pair ∈ (layer [base, upper]).pairs := by
  rw [pairs_layer]
  exact Ascending.mem_foldl_insert (Or.inr h) upper.ordered

theorem layer_layer (base upper : Parameters) :
    layer [layer [base, upper], upper] = layer [base, upper] := by
  refine eq_of_pairs ?_
  rw [pairs_layer]
  exact Ascending.foldl_insert_eq_self (layer [base, upper]).ordered fun p hp => mem_layer hp

end Parameters
end Appliance
