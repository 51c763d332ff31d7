import Appliance.Proofs.Schema.Record

/-! Values short of what one field of a record is read from. Whatever fills the gap is read by the
codec of the field and by nothing else, so the record is told by what the codec makes of it. -/
namespace Appliance

/-- A table short of the value of one member, or a sequence short of one item. -/
inductive Gap where
  | member (before : List (String × Value)) (name : String) (after : List (String × Value))
  | item (before after : List Value)

namespace Gap

def fill : Gap → Value → Value
  | member before name after, value => .table (before ++ (name, value) :: after)
  | item before after, value => .array (before ++ value :: after)

variable {ρ α : Type}

/-- Is the gap where a record has the field of a name? A member has it that is the last of its name,
and an item in the position of the field. -/
def IsFor (gap : Gap) (schema : Record ρ) (name : String) : Prop :=
  match gap with
  | member _ known after => known = name ∧ name ∉ after.map (·.1)
  | item before _ => (schema.fields.map (·.name))[before.length]? = some name

/-- Is a component of the record all that is made of what fills the gap? -/
def FillsOnly [Inhabited ρ] (gap : Gap) (schema : Record ρ) (format : Format) (codec : Codec α)
    (get : ρ → α) : Prop :=
  ∃ rest : α → ρ → Prop, (∀ a done, rest a done → get done = a) ∧
    ∀ value done, schema.read format (gap.fill value) = .ok done ↔
      ∃ a, codec.read format value = .ok a ∧ rest a done

end Gap

namespace Record

variable {ρ α : Type} {schema : Record ρ} {name : String} {codec : Codec α} {get : ρ → α}
  {set : ρ → α → ρ} {format : Format}

theorem fillsOnly_of_steps [Inhabited ρ] {gap : Gap} (before : Except DecodeError ρ)
    (after : ρ → Except DecodeError ρ) (get_set : ∀ record a, get (set record a) = a)
    (keeps : ∀ start done, after start = .ok done → get done = get start)
    (read : ∀ value, schema.read format (gap.fill value) =
      before >>= fun start => (codec.read format value).map (set start) >>= after) :
    gap.FillsOnly schema format codec get := by
  refine ⟨fun a done => ∃ start, before = .ok start ∧ after (set start a) = .ok done, ?_, ?_⟩
  · rintro a done ⟨start, -, last⟩
    exact (keeps _ _ last).trans (get_set start a)
  · intro value done
    simp only [read, Except.bind_eq_ok_iff, Except.map_eq_ok_iff]
    constructor
    · rintro ⟨start, first, _, ⟨a, taken, rfl⟩, last⟩
      exact ⟨a, taken, start, first, last⟩
    · rintro ⟨a, taken, start, first, last⟩
      exact ⟨start, first, _, ⟨a, taken, rfl⟩, last⟩

variable [DecidableEq α] [Inhabited α]

/-- Is the component of a field set by the field, and changed by no other one? -/
structure Separate (schema : Record ρ) (format : Format) (name : String) (codec : Codec α)
    (get : ρ → α) (set : ρ → α → ρ) : Prop where
  distinct : (schema.fields.map (·.name)).Nodup
  mem : .of name codec get set ∈ schema.fields
  get_set : ∀ record a, get (set record a) = a
  others : ∀ field ∈ schema.fields, field.name ≠ name →
    ∀ a, field.Keeps format (fun _ => True) (get · = a)

namespace Separate

variable (separate : schema.Separate format name codec get set)
include separate

theorem readMember_eq (start : ρ) (value : Value) :
    schema.readMember format start (name, value) = (codec.read format value).map (set start) := by
  have found := find?_name separate.distinct separate.mem
  unfold readMember
  rw [show name = (Field.of name codec get set).name from rfl, found]
  rfl

theorem keeps_readMember {member : String × Value} (other : member.1 ≠ name) {start done : ρ}
    (step : schema.readMember format start member = .ok done) : get done = get start := by
  unfold readMember at step
  split at step
  next field found =>
    have same : field.name = member.1 := by simpa using List.find?_some found
    exact separate.others field (List.mem_of_find?_eq_some found) (same ▸ other) _ trivial rfl step
  next =>
    cases step
    rfl

theorem exists_split {position : Nat}
    (there : (schema.fields.map (·.name))[position]? = some name) :
    ∃ before after, schema.fields = before ++ .of name codec get set :: after ∧
      before.length = position ∧ ∀ field ∈ after, field.name ≠ name := by
  obtain ⟨before, after, split⟩ := List.append_of_mem separate.mem
  have distinct := separate.distinct
  rw [split, List.map_append, List.map_cons] at distinct
  refine ⟨before, after, split, ?_, fun field mem same => ?_⟩
  · have here : (schema.fields.map (·.name))[before.length]? = some name := by
      simp [split, Field.of]
    have bound : before.length < (schema.fields.map (·.name)).length := by simp [split]
    exact (List.getElem?_inj bound separate.distinct).1 (here.trans there.symm)
  · have fresh := (List.nodup_cons.1 (List.nodup_append.1 distinct).2.1).1
    exact fresh (List.mem_map.2 ⟨field, mem, same⟩)

variable [Inhabited ρ]

theorem fillsOnly_member {before after : List (String × Value)} (last : name ∉ after.map (·.1)) :
    (Gap.member before name after).FillsOnly schema format codec get := by
  refine fillsOnly_of_steps (before.foldlM (schema.readMember format) default)
    (after.foldlM (schema.readMember format)) separate.get_set ?_ fun value => ?_
  · intro start done read
    refine Except.foldlM_keeps (P := (get · = get start)) (fun m hm _ _ kept step => ?_) rfl read
    have other : m.1 ≠ name := fun same => last (List.mem_map.2 ⟨m, hm, same⟩)
    exact (separate.keeps_readMember other step).trans kept
  · have members : schema.read format ((Gap.member before name after).fill value) =
        schema.readMembers format (before ++ (name, value) :: after) := rfl
    simp only [members, readMembers, List.foldlM_append, List.foldlM_cons, separate.readMember_eq]

theorem fillsOnly_item {before after : List Value}
    (there : (schema.fields.map (·.name))[before.length]? = some name) :
    (Gap.item before after).FillsOnly schema format codec get := by
  obtain ⟨first, others, fields, long, distinct⟩ := separate.exists_split there
  let step := fun (record : ρ) (given : Field ρ × Value) => given.1.read format given.2 record
  let finish := fun (start : ρ) => do
    let record ← (others.zip after).foldlM step start
    if format = Format.json ∧ schema.fields.length < before.length + (after.length + 1) then
      .error (.wrongLength (before.length + (after.length + 1)) "fewer elements in array")
    else return record
  refine fillsOnly_of_steps ((first.zip before).foldlM step default) finish separate.get_set ?_
    fun value => ?_
  · intro start done read
    obtain ⟨record, folded, read⟩ := Except.bind_eq_ok_iff.1 read
    have kept : get record = get start := by
      refine Except.foldlM_keeps (P := (get · = get start)) (fun m hm _ _ kept step => ?_) rfl
        folded
      have mem := (List.of_mem_zip hm).1
      exact separate.others m.1 (fields ▸ by simp [mem]) (distinct m.1 mem) _ trivial kept step
    split at read
    · cases read
    · cases read
      exact kept
  · have items : schema.read format ((Gap.item before after).fill value) =
        schema.readItems format (before ++ value :: after) := rfl
    have zipped : schema.fields.zip (before ++ value :: after) =
        first.zip before ++ (.of name codec get set, value) :: others.zip after := by
      rw [fields, List.zip_append long, List.zip_cons_cons]
    -- The last step counts the items, and there are as many of them whatever the value is.
    simp only [items, readItems, zipped, List.foldlM_append, List.foldlM_cons, bind_assoc,
      List.length_append, List.length_cons]
    rfl

theorem fillsOnly {gap : Gap} (isFor : gap.IsFor schema name) :
    gap.FillsOnly schema format codec get := by
  cases gap with
  | member before known after =>
    obtain ⟨rfl, last⟩ := isFor
    exact separate.fillsOnly_member last
  | item before after => exact separate.fillsOnly_item isFor

end Separate
end Record
end Appliance
