import Appliance.Proofs.Document.Schema
import Appliance.Proofs.Json.Printer
import Appliance.Proofs.Schema.Order

/-! Records that went through JSON. Their numbers may be read as other ones, but for those below a
limit; their members come back in another order. -/
namespace Appliance
open Json (reread)

/-- Is the thing read from what its written value is read as, given what numbers are read as? -/
def Codec.Survives {α : Type} (codec : Codec α) (number : Int → Value) (a : α) : Prop :=
  codec.read .json (reread number (codec.write a)) = .ok a

def Codec.through {α : Type} (codec : Codec α) (number : Int → Value) : Codec α where
  read := codec.read
  write a := reread number (codec.write a)

def Field.through {ρ : Type} (field : Field ρ) (number : Int → Value) : Field ρ :=
  { field with write record := (field.write record).map (reread number) }

def Record.through {ρ : Type} (schema : Record ρ) (number : Int → Value) : Record ρ :=
  { schema with fields := schema.fields.map (·.through number) }

def Json.Exact (number : Int → Value) (limit : Nat) : Prop :=
  ∀ n : Int, Value.Below limit n → number n = .integer n

variable {number : Int → Value} {limit : Nat}

section Inline

variable (exact : Json.Exact number limit)
include exact

theorem Value.IsScalar.reread_eq {value : Value} (scalar : value.IsScalar limit) :
    reread number value = value := by
  cases value with
  | boolean | string => rfl
  | integer n => exact exact n scalar
  | null | float | datetime | array | tables | table => exact scalar.elim

theorem Value.IsInline.reread_eq {value : Value} (inline : value.IsInline limit) :
    reread number value = value := by
  rcases inline with scalar | ⟨items, rfl, scalars⟩
  · exact scalar.reread_eq exact
  · rw [reread, Json.rereadItems_eq, List.map_congr_left fun item mem =>
      (scalars item mem).reread_eq exact, List.map_id']

theorem Value.IsFlat.reread_eq {members : List (String × Value)} (flat : IsFlat limit members) :
    reread number (.table members) = .table (Ascending.ofPairs members) := by
  have same : members.map (fun m => (m.1, reread number m.2)) = members := by
    have each : ∀ m ∈ members, (m.1, reread number m.2) = m := fun m mem =>
      Prod.ext rfl ((flat.isInline m mem).reread_eq exact)
    exact (List.map_congr_left each).trans (List.map_id' members)
  rw [reread, Json.rereadMembers_eq, same]

theorem Codec.Carries.survives {α : Type} {codec : Codec α} {a : α}
    (carries : codec.Carries .json (·.IsInline limit) a) : codec.Survives number a := by
  rw [Codec.Survives, carries.shaped.reread_eq exact, carries.reads]

theorem Codec.survives_parameters (map : Parameters) : parameters.Survives number map := by
  have flat : Value.IsFlat limit (map.pairs.map fun pair => (pair.1, .string pair.2)) :=
    (@Codec.carries_parameters .json limit map).shaped
  have ordered : Ascending.Ordered
      (map.pairs.map fun pair => (pair.1, Value.string pair.2)) :=
    List.pairwise_map.2 map.ordered
  have same : reread number (parameters.write map) = parameters.write map :=
    (flat.reread_eq exact).trans (congrArg Value.table (Ascending.ofPairs_eq_self ordered))
  rw [Codec.Survives, same]
  exact Codec.read_parameters map

namespace Record

variable {ρ : Type} [Inhabited ρ] {schema : Record ρ}

theorem Restores.survives (orderless : schema.Orderless) {record : ρ}
    (restores : schema.Restores .json (·.IsInline limit) record record) :
    schema.codec.Survives number record := by
  have flat := restores.flat
  have perm := (Ascending.ofPairs_perm flat.distinct).symm
  rw [Codec.Survives, show schema.codec.write record = .table (schema.members record) from rfl,
    flat.reread_eq exact]
  exact orderless.foldlM_perm perm flat.distinct restores.read_members

end Record

end Inline

theorem Codec.Survives.records {α : Type} {codec : Codec α} {as : List α}
    (each : ∀ a ∈ as, codec.Survives number a) : (Codec.records codec).Survives number as := by
  have items : (Codec.records codec).write as = .tables (as.map codec.write) := rfl
  rw [Codec.Survives, items, reread, Json.rereadItems_eq, List.map_map]
  exact Except.mapM_map_eq_ok each

section Through

variable {ρ : Type} {schema : Record ρ}

theorem Record.members_through (record : ρ) : (schema.through number).members record =
    (schema.members record).map fun m => (m.1, reread number m.2) := by
  simp only [members, through, List.filterMap_map, List.map_filterMap]
  refine List.filterMap_congr fun field _ => ?_
  simp only [Function.comp_apply, Field.through, Option.map_map]
  rfl

end Through

section Written

variable {ρ : Type} {schema : Record ρ}

theorem Record.mem_members_iff (distinct : (schema.fields.map (·.name)).Nodup) {field : Field ρ}
    (mem : field ∈ schema.fields) {record : ρ} {value : Value} :
    (field.name, value) ∈ schema.members record ↔ field.write record = some value := by
  simp only [members, List.mem_filterMap, Option.map_eq_some_iff]
  constructor
  · rintro ⟨other, there, _, written, same⟩
    obtain ⟨name, rfl⟩ := Prod.mk.inj same
    rwa [← List.inj_on_of_nodup_map distinct there mem name]
  · exact fun written => ⟨field, mem, value, written, rfl⟩

theorem Record.write_eq_of_reread (distinct : (schema.fields.map (·.name)).Nodup) {a b : ρ}
    (same : reread number (.table (schema.members a)) = reread number (.table (schema.members b)))
    {field : Field ρ} (mem : field ∈ schema.fields) :
    (field.write a).map (reread number) = (field.write b).map (reread number) := by
  have names : ((schema.through number).fields.map (·.name)).Nodup := by
    rw [through, List.map_map]
    exact distinct
  have perm (record : ρ) := Ascending.ofPairs_perm
    (names.sublist (names_membersOf_sublist (schema.through number).fields record))
  have pairs : Ascending.ofPairs ((schema.through number).members a) =
      Ascending.ofPairs ((schema.through number).members b) := by
    rw [members_through, members_through]
    rw [reread, reread, Json.rereadMembers_eq, Json.rereadMembers_eq] at same
    exact Value.table.inj same
  have there : field.through number ∈ (schema.through number).fields := List.mem_map_of_mem mem
  refine Option.ext fun value => ?_
  calc (field.through number).write a = some value
      ↔ (field.name, value) ∈ (schema.through number).members a :=
        (mem_members_iff names there).symm
    _ ↔ (field.name, value) ∈ Ascending.ofPairs ((schema.through number).members a) :=
        (perm a).mem_iff.symm
    _ ↔ (field.name, value) ∈ (schema.through number).members b := by
        rw [pairs]
        exact (perm b).mem_iff
    _ ↔ (field.through number).write b = some value := mem_members_iff names there

theorem Field.write_cases {α : Type} [DecidableEq α] [Inhabited α] {name : String} {codec : Codec α}
    {get : ρ → α} {set : ρ → α → ρ} {a b : ρ}
    (same : ((Field.of name codec get set).write a).map (reread number) =
      ((Field.of name codec get set).write b).map (reread number)) :
    get a = default ∧ get b = default ∨
      get a ≠ default ∧ get b ≠ default ∧
        reread number (codec.write (get a)) = reread number (codec.write (get b)) := by
  simp only [Field.of] at same
  by_cases first : get a = default
  · by_cases second : get b = default
    · exact .inl ⟨first, second⟩
    · simp [first, second] at same
  · by_cases second : get b = default
    · simp [first, second] at same
    · rw [if_neg first, if_neg second] at same
      exact .inr ⟨first, second, Option.some.inj same⟩

theorem Field.get_eq_of_write {α : Type} [DecidableEq α] [Inhabited α] {name : String}
    {codec : Codec α} {get : ρ → α} {set : ρ → α → ρ} {a b : ρ}
    (same : ((Field.of name codec get set).write a).map (reread number) =
      ((Field.of name codec get set).write b).map (reread number))
    (first : codec.Survives number (get a)) (second : codec.Survives number (get b)) :
    get a = get b := by
  rcases write_cases same with ⟨emptyA, emptyB⟩ | ⟨-, -, written⟩
  · rw [emptyA, emptyB]
  · rw [Codec.Survives, written, second] at first
    exact (Except.ok.inj first).symm

end Written

end Appliance
