import Appliance.Proofs.Toml.Value

/-! Putting a table together again from its sections. Every name comes once, so each assignment adds
a member behind the others, and each section but those of an array of tables does. -/
namespace Appliance.Toml

def valueNodes (members : List (String × Value)) : Members :=
  members.map fun (name, value) => (name, .value value)

def membersOf : Value → List (String × Value)
  | .table members => members
  | _ => []

/-- What a name stands for once all sections for its value are taken in. -/
def nodeOf : Value → Node
  | .table members => .table .headed (valueNodes members)
  | .tables items => .tables (items.map fun item => valueNodes (membersOf item)).reverse
  | value => .value value

namespace Members

variable {members : Members} {name : String}

theorem lookup_eq_none (fresh : name ∉ members.map (·.1)) : members.lookup name = none := by
  refine List.lookup_eq_none_iff.2 fun member h => ?_
  have other : name ≠ member.1 := fun same => fresh (List.mem_map.2 ⟨member, h, same.symm⟩)
  simpa using other

theorem lookup_append (fresh : name ∉ members.map (·.1)) (node : Node) :
    (members ++ [(name, node)]).lookup name = some node := by
  rw [List.lookup_append, lookup_eq_none fresh]
  simp

theorem replace_append (fresh : name ∉ members.map (·.1)) (node other : Node) :
    (members ++ [(name, node)]).replace name other = members ++ [(name, other)] := by
  have same : members.replace name other = members := by
    refine (List.map_congr_left fun member h => if_neg ?_).trans (List.map_id members)
    exact fun same => fresh (List.mem_map.2 ⟨member, h, same⟩)
  rw [replace, List.map_append, ← replace, same]
  simp

theorem assignAll_eq (values : List (String × Value)) {members : Members}
    (distinct : (members.map (·.1) ++ values.map (·.1)).Nodup) :
    assignAll (values.map fun (name, value) => ⟨[name], value⟩) members =
      some (members ++ valueNodes values) := by
  induction values generalizing members with
  | nil => simp [assignAll, valueNodes]
  | cons value values ih =>
    have fresh : value.1 ∉ members.map (·.1) := fun mem =>
      (List.nodup_append.1 distinct).2.2 _ mem _ List.mem_cons_self rfl
    have step : assign value.2 [value.1] members =
        some (members ++ [(value.1, .value value.2)]) := by
      simp [assign, lookup_eq_none fresh]
    have next := @ih (members ++ [(value.1, .value value.2)]) (by simpa using distinct)
    simp only [assignAll] at next ⊢
    rw [List.map_cons, List.foldlM_cons, step, Option.bind_eq_bind, Option.bind_some, next]
    simp [valueNodes]

theorem assignAll_flat {values : List (String × Value)} (flat : Value.IsFlat limit values) :
    assignAll (values.map fun (name, value) => ⟨[name], value⟩) [] = some (valueNodes values) :=
  assignAll_eq values flat.distinct

theorem add_next {items : List Value}
    (flat : ∀ item ∈ items, ∃ members, item = .table members ∧ Value.IsFlat limit members)
    (fresh : name ∉ members.map (·.1)) (elements : List Members) :
    (items.map fun item => ⟨.next [name], assignmentsOf item⟩).foldlM add
        (members ++ [(name, .tables elements)]) =
      some (members ++ [(name, .tables
        ((items.map fun item => valueNodes (membersOf item)).reverse ++ elements))]) := by
  induction items generalizing elements with
  | nil => rfl
  | cons item items ih =>
    obtain ⟨values, rfl, isFlat⟩ := flat item List.mem_cons_self
    have step : add (members ++ [(name, .tables elements)])
        ⟨.next [name], assignmentsOf (.table values)⟩ =
        some (members ++ [(name, .tables (valueNodes values :: elements))]) := by
      simp only [add, within, openNext, lookup_append fresh, assignmentsOf, assignAll_flat isFlat]
      rw [Option.map_some, replace_append fresh]
    have next := ih (fun item mem => flat item (List.mem_cons_of_mem _ mem))
      (valueNodes values :: elements)
    rw [List.map_cons, List.foldlM_cons, step, Option.bind_eq_bind, Option.bind_some, next]
    simp [membersOf]

theorem add_sectionsOf {value : Value} (block : value.IsBlock limit)
    (fresh : name ∉ members.map (·.1)) :
    (sectionsOf (name, value)).foldlM add members = some (members ++ [(name, nodeOf value)]) := by
  cases value with
  | table values =>
    have inner := assignAll_flat block
    simp [sectionsOf, add, within, openTable, lookup_eq_none fresh, assignmentsOf, inner, nodeOf]
  | tables items =>
    obtain ⟨some, flat⟩ := block
    obtain ⟨item, items, rfl⟩ := List.exists_cons_of_ne_nil some
    obtain ⟨values, rfl, isFlat⟩ := flat item List.mem_cons_self
    have first : add members ⟨.next [name], assignmentsOf (.table values)⟩ =
        .some (members ++ [(name, .tables [valueNodes values])]) := by
      simp [add, within, openNext, lookup_eq_none fresh, assignmentsOf, assignAll_flat isFlat]
    have rest := add_next (fun item mem => flat item (List.mem_cons_of_mem _ mem)) fresh
      [valueNodes values]
    rw [sectionsOf, List.map_cons, List.foldlM_cons, first, Option.bind_eq_bind, Option.bind_some,
      rest]
    simp [nodeOf, membersOf]
  | null | boolean | integer | float | string | datetime | array => exact block.elim

theorem add_flatMap_sectionsOf {blocks : List (String × Value)} {members : Members}
    (isBlock : ∀ m ∈ blocks, m.2.IsBlock limit)
    (distinct : (members.map (·.1) ++ blocks.map (·.1)).Nodup) :
    (blocks.flatMap sectionsOf).foldlM add members =
      some (members ++ blocks.map fun (name, value) => (name, nodeOf value)) := by
  induction blocks generalizing members with
  | nil => simp
  | cons block blocks ih =>
    have fresh : block.1 ∉ members.map (·.1) := fun mem =>
      (List.nodup_append.1 distinct).2.2 _ mem _ List.mem_cons_self rfl
    have step : (sectionsOf block).foldlM add members =
        some (members ++ [(block.1, nodeOf block.2)]) :=
      add_sectionsOf (isBlock block List.mem_cons_self) fresh
    have next := @ih (members ++ [(block.1, nodeOf block.2)])
      (fun m mem => isBlock m (List.mem_cons_of_mem _ mem)) (by simpa using distinct)
    rw [List.flatMap_cons, List.foldlM_append, step, Option.bind_eq_bind, Option.bind_some, next]
    simp

end Members

section ToValue

theorem membersToValues_append (front rest : Members) :
    membersToValues (front ++ rest) = membersToValues front ++ membersToValues rest := by
  induction front with
  | nil => rfl
  | cons m front ih => simp [membersToValues, ih]

theorem membersToValues_valueNodes (values : List (String × Value)) :
    membersToValues (valueNodes values) = values := by
  induction values with
  | nil => rfl
  | cons value values ih =>
    have tail :
        membersToValues (values.map fun (name, value) => (name, .value value)) = values := ih
    simp [valueNodes, membersToValues, Node.toValue, tail]

theorem elementsToValues_eq (elements : List Members) :
    elementsToValues elements = elements.map fun element => .table (membersToValues element) := by
  induction elements with
  | nil => rfl
  | cons element elements ih => simp [elementsToValues, ih]

theorem toValue_nodeOf {value : Value} (block : value.IsBlock limit) :
    (nodeOf value).toValue = value := by
  cases value with
  | table values => rw [nodeOf, Node.toValue, membersToValues_valueNodes]
  | tables items =>
    have same : items.map (fun item => .table (membersToValues (valueNodes (membersOf item)))) =
        items := by
      refine (List.map_congr_left fun item mem => ?_).trans (List.map_id items)
      obtain ⟨values, rfl, -⟩ := block.2 item mem
      rw [membersOf, membersToValues_valueNodes]
      rfl
    rw [nodeOf, Node.toValue, elementsToValues_eq, List.map_reverse, List.reverse_reverse,
      List.map_map]
    exact congrArg _ same
  | null | boolean | integer | float | string | datetime | array => exact block.elim

theorem membersToValues_nodeOf {blocks : List (String × Value)}
    (isBlock : ∀ m ∈ blocks, m.2.IsBlock limit) :
    membersToValues (blocks.map fun (name, value) => (name, nodeOf value)) = blocks := by
  induction blocks with
  | nil => rfl
  | cons block blocks ih =>
    have tail := ih fun m mem => isBlock m (List.mem_cons_of_mem _ mem)
    simp [membersToValues, toValue_nodeOf (isBlock block List.mem_cons_self), tail]

end ToValue

def Section.statements (part : Section) : List Statement :=
  .header part.header :: part.assignments.map .assign

theorem sections_assign_append (assignments : List Assignment) (rest : List Statement) :
    sections (assignments.map .assign ++ rest) =
      (assignments ++ (sections rest).1, (sections rest).2) := by
  induction assignments with
  | nil => rfl
  | cons assignment assignments ih => simp [sections, ih]

theorem sections_statements (parts : List Section) :
    sections (parts.flatMap Section.statements) = ([], parts) := by
  induction parts with
  | nil => rfl
  | cons part parts ih =>
    rw [List.flatMap_cons, Section.statements, List.cons_append, sections, sections_assign_append,
      ih, List.append_nil]

/-- The statements of a table, those of its inline values first, make the table again. -/
theorem assemble_statements {top blocks : List (String × Value)}
    (distinct : ((top ++ blocks).map (·.1)).Nodup) (isBlock : ∀ m ∈ blocks, m.2.IsBlock limit) :
    assemble (((assignmentsOf (.table top)).map .assign) ++
      (blocks.flatMap sectionsOf).flatMap Section.statements) = some (.table (top ++ blocks)) := by
  rw [List.map_append] at distinct
  have first : Members.assignAll (assignmentsOf (.table top)) [] = some (valueNodes top) :=
    Members.assignAll_eq top (List.nodup_append.1 distinct).1
  have names : (valueNodes top).map (·.1) = top.map (·.1) := by
    simp [valueNodes]
  have rest : (blocks.flatMap sectionsOf).foldlM Members.add (valueNodes top) =
      some (valueNodes top ++ blocks.map fun (name, value) => (name, nodeOf value)) :=
    Members.add_flatMap_sectionsOf isBlock (names ▸ distinct)
  rw [assemble, sections_assign_append, sections_statements, List.append_nil]
  simp only [Option.bind_eq_bind, first, Option.bind_some, rest, membersToValues_append,
    membersToValues_valueNodes, membersToValues_nodeOf isBlock]
  rfl

end Appliance.Toml
