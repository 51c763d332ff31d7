import Appliance.Document.Overlay
import Mathlib.Data.List.Basic

/-! Lists of records laid over each other. What is added is told by the lower list alone, so repeats
inside the upper list are kept, and it does not matter which of two steps is taken first. -/
namespace Appliance.Records

variable {α : Type} [DecidableEq α] {record : α} {base upper : List α}

theorem layer_eq_append_filter (base upper : List α) :
    layer base upper = base ++ upper.filter (· ∉ base) := by
  simp [layer]

theorem nil_layer (upper : List α) : layer [] upper = upper := by
  simp [layer]

theorem layer_nil (base : List α) : layer base [] = base := by
  simp [layer]

theorem mem_layer : record ∈ layer base upper ↔ record ∈ base ∨ record ∈ upper := by
  by_cases below : record ∈ base <;> simp [layer, below]

theorem layer_eq_base_iff : layer base upper = base ↔ ∀ record ∈ upper, record ∈ base := by
  rw [layer_eq_append_filter, List.append_right_eq_self, List.filter_eq_nil_iff]
  simp

theorem layer_self (records : List α) : layer records records = records :=
  layer_eq_base_iff.2 fun _ mem => mem

theorem layer_layer (base upper : List α) : layer (layer base upper) upper = layer base upper :=
  layer_eq_base_iff.2 fun _ mem => mem_layer.2 (.inr mem)

theorem layer_assoc (first second third : List α) :
    layer (layer first second) third = layer first (layer second third) := by
  have added : third.filter (· ∉ layer first second) =
      (third.filter (· ∉ second)).filter (· ∉ first) := by
    rw [List.filter_filter]
    refine List.filter_congr fun record _ => ?_
    simp [mem_layer]
  calc layer (layer first second) third
      = (first ++ second.filter (· ∉ first)) ++ third.filter (· ∉ layer first second) := by
        rw [layer_eq_append_filter, layer_eq_append_filter first]
    _ = first ++ (second ++ third.filter (· ∉ second)).filter (· ∉ first) := by
        rw [added, List.filter_append, List.append_assoc]
    _ = layer first (layer second third) := by
        rw [layer_eq_append_filter first, layer_eq_append_filter second]

theorem count_layer (base upper : List α) (record : α) :
    (layer base upper).count record =
      if record ∈ base then base.count record else upper.count record := by
  rw [layer_eq_append_filter, List.count_append]
  split
  · next below =>
    have nothing : (upper.filter (· ∉ base)).count record = 0 :=
      List.count_eq_zero.2 fun mem => by simp [below] at mem
    rw [nothing, Nat.add_zero]
  · next fresh =>
    rw [List.count_eq_zero.2 fresh, Nat.zero_add, List.count_filter (by simpa using fresh)]

example : layer [3, 1, 3] [2, 1, 2] = [3, 1, 3, 2, 2] := by decide

end Appliance.Records
