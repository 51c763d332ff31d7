import Appliance.Proofs.Schema.Codec
import Appliance.Schema.Record

/-! What the fields of a record write is read as the record again. A field that is not written is at
the start what it would have been set to. -/
namespace Appliance

/-- Reading what the fields write for a record, one after the other, leads from one partial record
to another. -/
inductive Fills {ρ : Type} (format : Format) (shape : Value → Prop) (record : ρ) :
    List (Field ρ) → ρ → ρ → Prop
  | nil (done : ρ) : Fills format shape record [] done done
  | cons {α : Type} [DecidableEq α] [Inhabited α] {name : String} {codec : Codec α} {get : ρ → α}
      {set : ρ → α → ρ} {fields : List (Field ρ)} {start done : ρ}
      (carries : get record ≠ default → codec.Carries format shape (get record))
      (unset : set start default = start)
      (rest : Fills format shape record fields (set start (get record)) done) :
      Fills format shape record (.of name codec get set :: fields) start done

def Field.Keeps {ρ : Type} (field : Field ρ) (format : Format) (source : Value → Prop)
    (good : ρ → Prop) : Prop :=
  ∀ ⦃value start done⦄, source value → good start → field.read format value start = .ok done →
    good done

variable {ρ : Type} {format : Format} {source : Value → Prop} {P : ρ → Prop}

theorem Field.keeps_of {α : Type} [DecidableEq α] [Inhabited α] {name : String} {codec : Codec α}
    {get : ρ → α} {set : ρ → α → ρ}
    (keeps : ∀ {value a start}, source value → codec.read format value = .ok a → P start →
      P (set start a)) :
    (Field.of name codec get set).Keeps format source P := by
  intro value start done fits before read
  simp only [Field.of] at read
  obtain ⟨a, found, rfl⟩ := Except.map_eq_ok_iff.1 read
  exact keeps fits found before

namespace Record

variable {shape : Value → Prop} {schema : Record ρ} {record : ρ}

theorem find?_name {fields : List (Field ρ)} (distinct : (fields.map (·.name)).Nodup)
    {field : Field ρ} (mem : field ∈ fields) :
    fields.find? (·.name = field.name) = some field := by
  induction fields with
  | nil => simp at mem
  | cons f fields ih =>
    have ⟨fresh, distinct⟩ := List.nodup_cons.1 distinct
    rcases List.mem_cons.1 mem with rfl | mem
    · simp
    · refine (List.find?_cons_of_neg ?_).trans (ih distinct mem)
      simpa using fun same => fresh (List.mem_map.2 ⟨field, mem, same.symm⟩)

def membersOf (fields : List (Field ρ)) (record : ρ) : List (String × Value) :=
  fields.filterMap fun field => (field.write record).map (field.name, ·)

theorem readMembers_membersOf (distinct : (schema.fields.map (·.name)).Nodup)
    {fields : List (Field ρ)} (sub : ∀ f ∈ fields, f ∈ schema.fields) {start done : ρ}
    (fills : Fills format shape record fields start done) :
    (membersOf fields record).foldlM (schema.readMember format) start = .ok done := by
  induction fills with
  | nil => rfl
  | @cons α _ _ name codec get set fields start done carries unset _ ih =>
    have tail := ih fun f hf => sub f (List.mem_cons_of_mem _ hf)
    by_cases same : get record = default
    · rw [same, unset] at tail
      simpa [membersOf, Field.of, same] using tail
    · have found := find?_name distinct (sub _ List.mem_cons_self)
      have step : schema.readMember format start (name, codec.write (get record)) =
          .ok (set start (get record)) := by
        simp only [readMember]
        rw [show name = (Field.of name codec get set).name from rfl, found]
        simp [Field.of, (carries same).reads, Except.map]
      have written : membersOf (.of name codec get set :: fields) record =
          (name, codec.write (get record)) :: membersOf fields record := by
        simp [membersOf, Field.of, same]
      rw [written, List.foldlM_cons, step]
      exact tail

theorem shape_of_mem_membersOf {fields : List (Field ρ)} {start done : ρ}
    (fills : Fills format shape record fields start done) :
    ∀ m ∈ membersOf fields record, shape m.2 := by
  induction fills with
  | nil => simp [membersOf]
  | @cons α _ _ name codec get set fields start done carries unset _ ih =>
    by_cases same : get record = default
    · simpa [membersOf, Field.of, same] using ih
    · have written : membersOf (.of name codec get set :: fields) record =
          (name, codec.write (get record)) :: membersOf fields record := by
        simp [membersOf, Field.of, same]
      rw [written]
      exact List.forall_mem_cons.2 ⟨(carries same).shaped, ih⟩

theorem names_membersOf_sublist (fields : List (Field ρ)) (record : ρ) :
    ((membersOf fields record).map (·.1)).Sublist (fields.map (·.name)) := by
  induction fields with
  | nil => exact .slnil
  | cons f fields ih =>
    cases written : f.write record with
    | none =>
      have same : membersOf (f :: fields) record = membersOf fields record := by
        simp [membersOf, written]
      rw [same]
      exact ih.cons f.name
    | some value =>
      have same : membersOf (f :: fields) record = (f.name, value) :: membersOf fields record := by
        simp [membersOf, written]
      rw [same]
      exact ih.cons_cons f.name

section Restores

variable [Inhabited ρ]

/-- Is what the schema writes for a record read as another one, and has every member a shape? -/
structure Restores (schema : Record ρ) (format : Format) (shape : Value → Prop)
    (record done : ρ) : Prop where
  distinct : (schema.fields.map (·.name)).Nodup
  fills : Fills format shape record schema.fields default done

variable {done : ρ}

theorem Restores.read_members (h : schema.Restores format shape record done) :
    schema.read format (.table (schema.members record)) = .ok done :=
  readMembers_membersOf h.distinct (fun _ mem => mem) h.fills

theorem Restores.nodup_members (h : schema.Restores format shape record done) :
    ((schema.members record).map (·.1)).Nodup :=
  h.distinct.sublist (names_membersOf_sublist schema.fields record)

theorem Restores.shape_of_mem (h : schema.Restores format shape record done) :
    ∀ m ∈ schema.members record, shape m.2 :=
  shape_of_mem_membersOf h.fills

variable {limit : Nat}

theorem Restores.flat (h : schema.Restores format (·.IsInline limit) record done) :
    Value.IsFlat limit (schema.members record) :=
  ⟨h.nodup_members, h.shape_of_mem⟩

theorem Restores.carries (h : schema.Restores format (·.IsInline limit) record record) :
    schema.codec.Carries format (·.IsBlock limit) record :=
  ⟨h.read_members, h.flat⟩

theorem Restores.carries_records {records : List ρ} (filled : records ≠ [])
    (h : ∀ r ∈ records, schema.Restores format (·.IsInline limit) r r) :
    (Codec.records schema.codec).Carries format (·.IsBlock limit) records where
  reads := Codec.read_sequence (fun _ => rfl) fun r hr => (h r hr).read_members
  shaped := by
    refine ⟨by simpa using filled, fun item mem => ?_⟩
    obtain ⟨r, hr, rfl⟩ := List.mem_map.1 mem
    exact ⟨_, rfl, (h r hr).flat⟩

end Restores

theorem of_read [Inhabited ρ] {schema : Record ρ} (hereditary : Value.Hereditary source)
    (keeps : ∀ field ∈ schema.fields, field.Keeps format source P) (empty : P default)
    {value : Value} {record : ρ} (fits : source value)
    (read : schema.read format value = .ok record) : P record := by
  unfold Record.read at read
  split at read
  · next members _ looked =>
    refine Except.foldlM_keeps (fun m hm start done before step => ?_) empty read
    unfold readMember at step
    split at step
    · next field found =>
      exact keeps field (List.mem_of_find?_eq_some found) (hereditary.members fits looked m hm)
        before step
    · cases step
      exact before
  · next items looked _ =>
    obtain ⟨done, folded, read⟩ := Except.bind_eq_ok_iff.1 read
    have finished : P done := by
      refine Except.foldlM_keeps (fun m hm start after before step => ?_) empty folded
      have zipped := List.of_mem_zip hm
      exact keeps m.1 zipped.1 (hereditary.items fits looked _ zipped.2) before step
    split at read
    · cases read
    · cases read
      exact finished
  · cases read

end Record
end Appliance
