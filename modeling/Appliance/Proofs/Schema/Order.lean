import Appliance.Document.Schema
import Appliance.Proofs.Schema.Record
import Mathlib.Data.List.Pairwise

/-! The order of the members of a table. Fields are set one apart from the other, so members with
distinct names may be read in any order. -/
namespace Appliance

def Field.Commutes {ρ : Type} (f g : Field ρ) : Prop :=
  ∀ format v w start done,
    (∃ next, f.read format v start = .ok next ∧ g.read format w next = .ok done) ↔
      ∃ next, g.read format w start = .ok next ∧ f.read format v next = .ok done

def Record.Orderless {ρ : Type} (schema : Record ρ) : Prop := schema.fields.Pairwise Field.Commutes

variable {ρ : Type}

theorem Field.Commutes.symm {f g : Field ρ} (h : f.Commutes g) : g.Commutes f :=
  fun format v w start done => (h format w v start done).symm

instance : Std.Symm (@Field.Commutes ρ) := ⟨fun _ _ h => h.symm⟩

theorem Field.commutes_of {α β : Type} [DecidableEq α] [Inhabited α] [DecidableEq β] [Inhabited β]
    {name other : String} {codec : Codec α} {codec' : Codec β} {get : ρ → α} {get' : ρ → β}
    {set : ρ → α → ρ} {set' : ρ → β → ρ}
    (swap : ∀ record a b, set' (set record a) b = set (set' record b) a) :
    (Field.of name codec get set).Commutes (.of other codec' get' set') := by
  intro format v w start done
  simp only [Field.of, Except.map_eq_ok_iff]
  constructor
  · rintro ⟨_, ⟨a, first, rfl⟩, b, second, rfl⟩
    exact ⟨_, ⟨b, second, rfl⟩, a, first, (swap start a b).symm⟩
  · rintro ⟨_, ⟨b, second, rfl⟩, a, first, rfl⟩
    exact ⟨_, ⟨a, first, rfl⟩, b, second, swap start a b⟩

namespace Record

variable {schema : Record ρ} {format : Format}

theorem Orderless.commutes (orderless : schema.Orderless) {f g : Field ρ}
    (first : f ∈ schema.fields) (second : g ∈ schema.fields) (apart : f.name ≠ g.name) :
    f.Commutes g :=
  List.Pairwise.forall orderless first second fun same => apart (by rw [same])

theorem Orderless.readMember (orderless : schema.Orderless) {m n : String × Value}
    (apart : m.1 ≠ n.1) {start next done : ρ} (first : schema.readMember format start m = .ok next)
    (second : schema.readMember format next n = .ok done) :
    ∃ next, schema.readMember format start n = .ok next ∧
      schema.readMember format next m = .ok done := by
  unfold Record.readMember at first second ⊢
  cases foundM : schema.fields.find? (·.name = m.1) with
  | none =>
    rw [foundM] at first
    cases first
    exact ⟨done, second, rfl⟩
  | some f =>
    cases foundN : schema.fields.find? (·.name = n.1) with
    | none =>
      rw [foundN] at second
      cases second
      exact ⟨start, rfl, by rwa [foundM] at first⟩
    | some g =>
      have nameF : f.name = m.1 := by simpa using List.find?_some foundM
      have nameG : g.name = n.1 := by simpa using List.find?_some foundN
      have commutes := orderless.commutes (List.mem_of_find?_eq_some foundM)
        (List.mem_of_find?_eq_some foundN) (by rwa [nameF, nameG])
      rw [foundM] at first
      rw [foundN] at second
      exact (commutes format m.2 n.2 start done).1 ⟨next, first, second⟩

/-- Members with distinct names may be read in any order. -/
theorem Orderless.foldlM_perm (orderless : schema.Orderless) {a b : List (String × Value)}
    (perm : a.Perm b) (distinct : (a.map (·.1)).Nodup) {start done : ρ}
    (read : a.foldlM (schema.readMember format) start = .ok done) :
    b.foldlM (schema.readMember format) start = .ok done := by
  induction perm generalizing start with
  | nil => exact read
  | cons m _ ih =>
    rw [List.foldlM_cons] at read ⊢
    obtain ⟨next, first, rest⟩ := Except.bind_eq_ok_iff.1 read
    rw [first]
    exact ih (List.nodup_cons.1 distinct).2 rest
  | swap m n rest =>
    have apart : n.1 ≠ m.1 := by
      simp only [List.map_cons, List.nodup_cons, List.mem_cons, not_or] at distinct
      exact distinct.1.1
    simp only [List.foldlM_cons] at read ⊢
    obtain ⟨next, first, read⟩ := Except.bind_eq_ok_iff.1 read
    obtain ⟨done, second, tail⟩ := Except.bind_eq_ok_iff.1 read
    obtain ⟨next, second, first⟩ := orderless.readMember apart first second
    exact Except.bind_eq_ok_iff.2 ⟨next, second, Except.bind_eq_ok_iff.2 ⟨done, first, tail⟩⟩
  | trans first _ ih ih' =>
    exact ih' ((first.map _).nodup_iff.1 distinct) (ih distinct read)

end Record

section Schemas

open Appliance.Field (commutes_of)

theorem Program.orderless : schema.Orderless := by
  simp only [Record.Orderless, schema, List.pairwise_cons, List.forall_mem_cons]
  and_intros <;> first | exact commutes_of fun _ _ _ => rfl | simp

theorem Interface.orderless : schema.Orderless := by
  simp only [Record.Orderless, schema, List.pairwise_cons, List.forall_mem_cons]
  and_intros <;> first | exact commutes_of fun _ _ _ => rfl | simp

theorem Settings.orderless : schema.Orderless := by
  simp only [Record.Orderless, schema, List.pairwise_cons, List.forall_mem_cons]
  and_intros <;> first | exact commutes_of fun _ _ _ => rfl | simp

theorem Package.orderless : schema.Orderless := by
  simp only [Record.Orderless, schema, List.pairwise_cons, List.forall_mem_cons]
  and_intros <;> first | exact commutes_of fun _ _ _ => rfl | simp

theorem Machine.orderless : schema.Orderless := by
  simp only [Record.Orderless, schema, List.pairwise_cons, List.forall_mem_cons]
  and_intros <;> first | exact commutes_of fun _ _ _ => rfl | simp

theorem Mount.orderless : schema.Orderless := by
  simp only [Record.Orderless, schema, List.pairwise_cons, List.forall_mem_cons]
  and_intros <;> first | exact commutes_of fun _ _ _ => rfl | simp

theorem Route.orderless : schema.Orderless := by
  simp only [Record.Orderless, schema, List.pairwise_cons, List.forall_mem_cons]
  and_intros <;> first | exact commutes_of fun _ _ _ => rfl | simp

theorem LogSink.orderless : schema.Orderless := by
  simp only [Record.Orderless, schema, List.pairwise_cons, List.forall_mem_cons]
  and_intros <;> first | exact commutes_of fun _ _ _ => rfl | simp

theorem Document.orderless : schema.Orderless := by
  simp only [Record.Orderless, schema, List.pairwise_cons, List.forall_mem_cons]
  and_intros <;> first | exact commutes_of fun _ _ _ => rfl | simp

end Schemas

end Appliance
