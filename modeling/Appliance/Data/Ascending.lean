/-! Association lists in ascending order of their names, each name once, and the parameters of a
kernel, which are texts under names. Names compare by code points, which is also the order of their
UTF-8 bytes. -/
namespace Appliance

namespace Ascending

variable {α : Type}

def Ordered (pairs : List (String × α)) : Prop := pairs.Pairwise fun a b => a.1 < b.1

instance (pairs : List (String × α)) : Decidable (Ordered pairs) :=
  inferInstanceAs (Decidable (List.Pairwise _ _))

def insert (name : String) (value : α) : List (String × α) → List (String × α)
  | [] => [(name, value)]
  | pair :: rest =>
    if name < pair.1 then (name, value) :: pair :: rest
    else if name = pair.1 then (name, value) :: rest
    else pair :: insert name value rest

theorem mem_insert {name : String} {value : α} {pairs : List (String × α)} {pair : String × α}
    (h : pair ∈ insert name value pairs) : pair = (name, value) ∨ pair ∈ pairs := by
  induction pairs with
  | nil => simpa [insert] using h
  | cons p rest ih =>
    simp only [insert] at h
    split at h
    · simpa using h
    · split at h
      · rcases List.mem_cons.1 h with h | h
        · exact Or.inl h
        · exact Or.inr (List.mem_cons_of_mem _ h)
      · rcases List.mem_cons.1 h with h | h
        · exact Or.inr (by simp [h])
        · rcases ih h with h | h
          · exact Or.inl h
          · exact Or.inr (List.mem_cons_of_mem _ h)

theorem Ordered.insert {name : String} {value : α} {pairs : List (String × α)}
    (h : Ordered pairs) : Ordered (insert name value pairs) := by
  induction pairs with
  | nil => simp [Ascending.insert, Ordered]
  | cons p rest ih =>
    have ⟨first, tail⟩ := List.pairwise_cons.1 h
    simp only [Ascending.insert]
    split
    · next lt =>
      refine List.pairwise_cons.2 ⟨fun q hq => ?_, h⟩
      rcases List.mem_cons.1 hq with rfl | hq
      · exact lt
      · exact String.lt_trans lt (first q hq)
    · next notLt =>
      split
      · next eq => exact List.pairwise_cons.2 ⟨fun q hq => eq ▸ first q hq, tail⟩
      · next ne =>
        refine List.pairwise_cons.2 ⟨fun q hq => ?_, ih tail⟩
        rcases mem_insert hq with rfl | hq
        · have le := String.not_lt.1 notLt
          exact Decidable.byContradiction fun notGt =>
            ne (String.le_antisymm (String.not_lt.1 notGt) le)
        · exact first q hq

/-- The pairs in ascending order; of equal names the last one stays. -/
def ofPairs (pairs : List (String × α)) : List (String × α) :=
  pairs.foldl (fun done pair => insert pair.1 pair.2 done) []

theorem ordered_ofPairs (pairs : List (String × α)) : Ordered (ofPairs pairs) := by
  have step : ∀ (pairs done : List (String × α)), Ordered done →
      Ordered (pairs.foldl (fun done pair => insert pair.1 pair.2 done) done) := by
    intro pairs
    induction pairs with
    | nil => exact fun _ h => h
    | cons p rest ih => exact fun _ h => ih _ h.insert
  exact step pairs [] List.Pairwise.nil

end Ascending

structure Parameters where
  pairs : List (String × String)
  ordered : Ascending.Ordered pairs
  deriving DecidableEq

namespace Parameters

def empty : Parameters := ⟨[], List.Pairwise.nil⟩

instance : Inhabited Parameters := ⟨empty⟩

def ofPairs (pairs : List (String × String)) : Parameters :=
  ⟨Ascending.ofPairs pairs, Ascending.ordered_ofPairs pairs⟩

def layer (maps : List Parameters) : Parameters := ofPairs (maps.flatMap (·.pairs))

end Parameters

end Appliance
