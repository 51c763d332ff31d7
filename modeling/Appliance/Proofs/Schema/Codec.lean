import Appliance.Proofs.Data.Except
import Appliance.Proofs.Data.Value
import Appliance.Proofs.Entries.Distinct
import Appliance.Proofs.Parameters
import Appliance.Proofs.Size
import Appliance.Schema.Codec

/-! What a codec writes for a thing is read as the thing again, and what properties of a value say
about what is read from it. -/
namespace Appliance

structure Codec.Carries {α : Type} (codec : Codec α) (format : Format) (shape : Value → Prop)
    (a : α) : Prop where
  reads : codec.read format (codec.write a) = .ok a
  shaped : shape (codec.write a)

/-- Does a property of values hold of their parts as well? -/
structure Value.Hereditary (source : Value → Prop) : Prop where
  members : ∀ {value members}, source value → value.members? = some members →
    ∀ m ∈ members, source m.2
  items : ∀ {value items}, source value → value.items? = some items → ∀ item ∈ items, source item

theorem Value.hereditary_fits (range : Int → Prop) : Hereditary (Fits range) where
  members := by
    intro value members fits looked
    cases fits with
    | table each =>
      cases looked
      exact each
    | datetime t =>
      cases looked
      exact List.forall_mem_singleton.2 (.string _)
    | _ => cases looked
  items := by
    intro value items fits looked
    cases fits with
    | array each =>
      cases looked
      exact each
    | tables each =>
      cases looked
      exact each
    | _ => cases looked

namespace Codec

variable {format : Format} {shape : Value → Prop}

theorem natural_eq_ok {limit n : Nat} (expected : String) (small : n < limit) :
    natural limit expected format (.integer n) = .ok n := by
  have within : (0 : Int) ≤ n ∧ (n : Int) < limit := ⟨Int.natCast_nonneg n, Int.ofNat_lt.2 small⟩
  rw [natural, if_pos within, Int.toNat_natCast]

theorem read_u32 (n : UInt32) : u32.read format (u32.write n) = .ok n := by
  have read := @natural_eq_ok format _ _ "u32" n.toNat_lt
  rw [u32]
  dsimp only
  rw [show 0x100000000 = 2 ^ 32 by decide, read]
  exact congrArg _ n.ofNat_toNat

theorem read_u64 (n : UInt64) : u64.read format (u64.write n) = .ok n := by
  have read := @natural_eq_ok format _ _ "u64" n.toNat_lt
  rw [u64]
  dsimp only
  rw [show 0x10000000000000000 = 2 ^ 64 by decide, read]
  exact congrArg _ n.ofNat_toNat

theorem read_size (size : Size) : Codec.size.read format (Codec.size.write size) = .ok size := by
  simp [Codec.size, Size.read_text]

theorem read_entry {e : Entry} (spelled : e.WellSpelled) :
    entry.read format (entry.write e) = .ok e := by
  simp [entry, string, Except.map, spelled.ofSpelling_spelling]

theorem read_sequence {α : Type} {item : Codec α} {wrap : List Value → Value}
    (items : ∀ values, (wrap values).items? = some values) {as : List α}
    (h : ∀ a ∈ as, item.read format (item.write a) = .ok a) :
    (sequence wrap item).read format ((sequence wrap item).write as) = .ok as := by
  simp [sequence, items, Except.mapM_map_eq_ok h]

theorem read_choice {α : Type} {choices : List (String × α)} {name : α → String} {a : α}
    (found : choices.find? (·.1 = name a) = some (name a, a)) :
    (choice choices name).read format ((choice choices name).write (some a)) = .ok (some a) := by
  have chosen : choose choices (name a) = .ok a := by simp [choose, found]
  cases format <;> simp [choice, readChoice, chosen, Except.map]

theorem read_parameters (map : Parameters) :
    parameters.read format (parameters.write map) = .ok map := by
  simp only [parameters, Value.members?]
  rw [Except.mapM_map_eq_ok]
  · exact congrArg _ map.ofPairs_pairs
  · exact fun _ _ => rfl

section Shapes

variable {limit : Nat}

theorem carries_string (s : String) : string.Carries format (·.IsInline limit) s :=
  ⟨rfl, Or.inl trivial⟩

theorem carries_bool (b : Bool) : bool.Carries format (·.IsInline limit) b :=
  ⟨rfl, Or.inl trivial⟩

theorem carries_date (s : String) : date.Carries format (·.IsInline limit) s :=
  ⟨rfl, Or.inl trivial⟩

theorem carries_u32 (wide : UInt32.size ≤ limit) (n : UInt32) :
    u32.Carries format (·.IsInline limit) n where
  reads := read_u32 n
  shaped := by
    have small : n.toNat < limit := Nat.lt_of_lt_of_le n.toNat_lt_size wide
    exact Or.inl ⟨Int.natCast_nonneg _, Int.ofNat_lt.2 small⟩

theorem carries_u64 {n : UInt64} (small : n.toNat < limit) :
    u64.Carries format (·.IsInline limit) n :=
  ⟨read_u64 n, Or.inl ⟨Int.natCast_nonneg _, Int.ofNat_lt.2 small⟩⟩

theorem carries_size (size : Size) : Codec.size.Carries format (·.IsInline limit) size :=
  ⟨read_size size, Or.inl trivial⟩

theorem carries_strings (texts : List String) :
    (list string).Carries format (·.IsInline limit) texts where
  reads := read_sequence (fun _ => rfl) fun _ _ => rfl
  shaped := Or.inr ⟨_, rfl, by simp [string, Value.IsScalar]⟩

theorem carries_entries {entries : List Entry} (spelled : ∀ e ∈ entries, e.WellSpelled) :
    (list entry).Carries format (·.IsInline limit) entries where
  reads := read_sequence (fun _ => rfl) fun e he => read_entry (spelled e he)
  shaped := Or.inr ⟨_, rfl, by simp [entry, Value.IsScalar]⟩

theorem carries_choice {α : Type} {choices : List (String × α)} {name : α → String}
    (found : ∀ a, choices.find? (·.1 = name a) = some (name a, a)) {choice : Option α}
    (set : choice ≠ none) :
    (Codec.choice choices name).Carries format (·.IsInline limit) choice := by
  obtain ⟨a, rfl⟩ := Option.ne_none_iff_exists'.1 set
  exact ⟨read_choice (found a), Or.inl trivial⟩

theorem carries_parameters (map : Parameters) :
    parameters.Carries format (·.IsBlock limit) map where
  reads := read_parameters map
  shaped := by
    refine ⟨?_, ?_⟩
    · rw [List.map_map, List.nodup_iff_pairwise_ne, List.pairwise_map]
      have apart {p q : String × String} (less : p.1 < q.1) : p.1 ≠ q.1 :=
        fun same => String.lt_irrefl _ (same ▸ less)
      exact List.Pairwise.imp apart map.ordered
    · intro m hm
      obtain ⟨pair, -, rfl⟩ := List.mem_map.1 hm
      exact Or.inl trivial

end Shapes

section Sources

variable {source : Value → Prop} {value : Value}

theorem forall_of_read_sequence {α : Type} {item : Codec α} {wrap : List Value → Value}
    {good : α → Prop} (hereditary : Value.Hereditary source)
    (each : ∀ {value a}, source value → item.read format value = .ok a → good a)
    (fits : source value) {as : List α} (read : (sequence wrap item).read format value = .ok as) :
    ∀ a ∈ as, good a := by
  simp only [sequence] at read
  split at read
  · next items looked =>
    exact Except.forall_of_mapM (fun x hx => each (hereditary.items fits looked x hx)) read
  · cases read

theorem wellSpelled_of_read {e : Entry} (read : entry.read format value = .ok e) :
    e.WellSpelled := by
  simp only [entry] at read
  obtain ⟨raw, -, same⟩ := Except.map_eq_ok_iff.1 read
  exact ⟨raw, same⟩

theorem toNat_lt_of_read_u64 {limit : Nat} (fits : value.Fits (· < limit)) {n : UInt64}
    (read : u64.read format value = .ok n) : n.toNat < limit := by
  cases fits with
  | @integer i small =>
    simp only [u64, natural] at read
    split at read
    · next within =>
      cases read
      refine Nat.lt_of_le_of_lt (Nat.mod_le _ _) ?_
      exact (Int.toNat_lt within.1).2 small
    · cases read
  | _ => cases read

end Sources

end Codec
end Appliance
