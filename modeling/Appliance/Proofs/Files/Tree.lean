import Appliance.Files.Disk
import Mathlib.Data.List.Basic

/-! What stands where in a file tree after a change, and what a directory holds then. -/
namespace Appliance.Disk

variable {disk : Disk} {place other : Location} {name : String} {node : Node}

@[simp] theorem get?_root (disk : Disk) : disk.get? [] = some .directory := rfl

theorem get?_put (h : place ≠ []) (other : Location) :
    (disk.put place node).get? other = if other = place then some node else disk.get? other := by
  by_cases root : other = []
  · simp [root, h.symm]
  · by_cases same : other = place
    · simp [get?, put, same, h]
    · simp only [get?, put, if_neg root, if_neg same, List.find?_cons_of_neg, List.find?_filter,
        decide_eq_true_eq, Ne.symm same, not_false_eq_true]
      congr 2
      funext entry
      by_cases found : entry.1 = other <;> simp [found, same]

theorem get?_erase (h : place ≠ []) (other : Location) :
    (disk.erase place).get? other = if other = place then none else disk.get? other := by
  by_cases root : other = []
  · simp [root, h.symm]
  · by_cases same : other = place
    · simp [get?, erase, same, h]
    · simp only [get?, erase, if_neg root, if_neg same, List.find?_filter]
      congr 2
      funext entry
      by_cases found : entry.1 = other <;> simp [found, same]

section Children

variable {nodes : List (Location × Node)} {here : Location} {clock : Time}

@[simp] theorem children_root (node : Node) (place : Location) :
    children ⟨([], node) :: nodes, here, clock⟩ place = children ⟨nodes, here, clock⟩ place := by
  simp [children, List.filterMap_cons]

theorem children_cons (above : Location) (name : String) (node : Node) (place : Location) :
    children ⟨(above ++ [name], node) :: nodes, here, clock⟩ place =
      if above = place then (name, node) :: children ⟨nodes, here, clock⟩ place
      else children ⟨nodes, here, clock⟩ place := by
  by_cases same : above = place <;> simp [children, same]

end Children

theorem get?_concat (disk : Disk) (place : Location) (name : String) :
    disk.get? (place ++ [name]) = (disk.children place).lookup name := by
  obtain ⟨nodes, here, clock⟩ := disk
  simp only [get?, List.append_ne_nil_of_right_ne_nil _ (List.cons_ne_nil name []), if_false]
  induction nodes with
  | nil => rfl
  | cons entry nodes ih =>
    obtain ⟨above, node⟩ := entry
    rcases List.eq_nil_or_concat' above with rfl | ⟨above, last, rfl⟩
    · simpa [List.find?_cons] using ih
    · rw [children_cons]
      rcases eq_or_ne above place with rfl | away
      · rw [if_pos rfl, List.lookup_cons]
        rcases eq_or_ne name last with rfl | named
        · simp
        · simpa [beq_false_of_ne named, named.symm] using ih
      · simpa [away] using ih

theorem children_eq_nil (empty : ∀ name, disk.get? (place ++ [name]) = none) :
    disk.children place = [] := by
  rcases entries : disk.children place with _ | ⟨⟨name, node⟩, rest⟩
  · rfl
  · have there := empty name
    rw [get?_concat, entries] at there
    simp at there

theorem mem_children_iff (once : ((disk.children place).map (·.1)).Nodup) :
    (name, node) ∈ disk.children place ↔ disk.get? (place ++ [name]) = some node := by
  rw [get?_concat]
  generalize disk.children place = entries at once ⊢
  induction entries with
  | nil => simp
  | cons entry rest ih =>
    obtain ⟨first, held⟩ := entry
    rw [List.map_cons, List.nodup_cons] at once
    rw [List.mem_cons, Prod.mk.injEq, List.lookup_cons]
    rcases eq_or_ne name first with rfl | other
    · have absent : (name, node) ∉ rest :=
        fun mem => once.1 (List.mem_map.2 ⟨(name, node), mem, rfl⟩)
      simp [absent, eq_comm]
    · simpa [beq_false_of_ne other, other] using ih once.2

theorem children_filter (disk : Disk) (place : Location) (name : String) :
    children ⟨disk.nodes.filter (·.1 ≠ place ++ [name]), disk.here, disk.clock⟩ place =
      (disk.children place).filter (·.1 ≠ name) := by
  obtain ⟨nodes, here, clock⟩ := disk
  induction nodes with
  | nil => rfl
  | cons entry nodes ih =>
    obtain ⟨above, node⟩ := entry
    rcases List.eq_nil_or_concat' above with rfl | ⟨above, last, rfl⟩
    · simpa [List.filter_cons] using ih
    · by_cases same : above = place <;> by_cases named : last = name <;>
        simp_all [children_cons]

theorem children_put (disk : Disk) (place : Location) (name : String) (node : Node) :
    (disk.put (place ++ [name]) node).children place =
      (name, node) :: (disk.children place).filter (·.1 ≠ name) := by
  rw [put, children_cons, if_pos rfl, children_filter]

theorem children_erase (disk : Disk) (place : Location) (name : String) :
    (disk.erase (place ++ [name])).children place = (disk.children place).filter (·.1 ≠ name) :=
  children_filter disk place name

end Appliance.Disk
