import Appliance.Proofs.Document.Precedence

/-! Layers that are grouped before they are laid over each other. The record lists of the outcome
are told by the sequence of the layers; how they were grouped makes no difference to them. -/
namespace Appliance

/-- Documents laid over each other in pairs, some of which are outcomes themselves. -/
inductive Grouping where
  | layer (doc : Document)
  | group (base upper : Grouping) (now : Time)

namespace Grouping

def layers : Grouping → List Document
  | layer doc => [doc]
  | group base upper _ => base.layers ++ upper.layers

def outcome : Grouping → Document
  | layer doc => doc
  | group base upper now => base.outcome.overlay upper.outcome now

theorem records_outcome {α : Type} [DecidableEq α] {records : Document → List α}
    (united : ∀ base upper now,
      records (base.overlay upper now) = Records.layer (records base) (records upper))
    (grouping : Grouping) :
    records grouping.outcome = Records.gather [] (grouping.layers.map records) := by
  induction grouping with
  | layer doc => simp [outcome, layers, Records.gather]
  | group base upper now base_eq upper_eq =>
    rw [outcome, united, base_eq, upper_eq, layers, List.map_append, Records.gather_append_eq_layer]

end Grouping

/-- Laying record lists over each other is associative and absorbs what is there already; a record
is kept as often as the lowest list that holds it has it, the lower list first and the rest in the
order of the upper one. So the record lists of documents are those of the sequence of layers, in
whatever groups the layers come. -/
theorem Records.layer_unites_in_any_grouping {α : Type} [DecidableEq α]
    (first second third : List α) :
    layer (layer first second) third = layer first (layer second third) ∧
    layer (layer first second) second = layer first second ∧
    layer first first = first ∧
    (∀ record, (layer first second).count record =
      if record ∈ first then first.count record else second.count record) ∧
    (∃ added, layer first second = first ++ added ∧ added.Sublist second) ∧
    ∀ grouping : Grouping,
      grouping.outcome.programs = gather [] (grouping.layers.map (·.programs)) ∧
      grouping.outcome.mounts = gather [] (grouping.layers.map (·.mounts)) ∧
      grouping.outcome.routes = gather [] (grouping.layers.map (·.routes)) ∧
      grouping.outcome.logs = gather [] (grouping.layers.map (·.logs)) := by
  refine ⟨layer_assoc first second third, layer_layer first second, layer_self first,
    count_layer first second, ⟨_, rfl, List.filter_sublist⟩, fun grouping => ⟨?_, ?_, ?_, ?_⟩⟩
  · exact grouping.records_outcome fun _ _ _ => rfl
  · exact grouping.records_outcome fun _ _ _ => rfl
  · exact grouping.records_outcome fun _ _ _ => rfl
  · exact grouping.records_outcome fun _ _ _ => rfl

end Appliance
