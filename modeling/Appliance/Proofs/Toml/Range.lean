import Appliance.Proofs.Data.Value
import Appliance.Toml.Reader
import Mathlib.Tactic.SplitIfs

/-! The integers of a text that is read fit in 64 bits: its numbers do, and every other integer of
its tables is one of theirs. -/
namespace Appliance.Toml

inductive Node.Fits (range : Int → Prop) : Node → Prop
  | value {value : Value} (fits : value.Fits range) : Fits range (.value value)
  | table {origin : Origin} {members : Members} (each : ∀ m ∈ members, Fits range m.2) :
      Fits range (.table origin members)
  | tables {elements : List Members} (each : ∀ members ∈ elements, ∀ m ∈ members, Fits range m.2) :
      Fits range (.tables elements)

def Members.Fits (range : Int → Prop) (members : Members) : Prop := ∀ m ∈ members, m.2.Fits range

variable {range : Int → Prop}

namespace Members

variable {members result : Members} {name : String} {node : Node}

theorem Fits.nil : Members.Fits range [] := by simp [Members.Fits]

theorem Fits.append (h : members.Fits range) (fits : node.Fits range) :
    Members.Fits range (members ++ [(name, node)]) :=
  List.forall_mem_append.2 ⟨h, List.forall_mem_singleton.2 fits⟩

theorem Fits.lookup (h : members.Fits range) (found : members.lookup name = some node) :
    node.Fits range := by
  obtain ⟨before, after, rfl, -⟩ := List.lookup_eq_some_iff.1 found
  exact h (name, node) (by simp)

theorem Fits.replace (h : members.Fits range) (fits : node.Fits range) :
    (members.replace name node).Fits range := by
  intro m hm
  obtain ⟨member, mem, rfl⟩ := List.mem_map.1 hm
  split_ifs
  · exact fits
  · exact h member mem

theorem Fits.erase (h : members.Fits range) : (members.erase name).Fits range :=
  fun m hm => h m (List.mem_filter.1 hm).1

theorem Fits.assign {value : Value} (fits : value.Fits range) {key : Key} (h : members.Fits range)
    (assigned : members.assign value key = some result) : result.Fits range := by
  fun_induction Members.assign value key members generalizing result with
  | case1 => cases assigned
  | case2 => cases assigned
  | case3 name members fresh =>
    cases assigned
    exact h.append (.value fits)
  | case4 members name key long fresh ih =>
    obtain ⟨inner, made, rfl⟩ := Option.map_eq_some_iff.1 assigned
    exact h.append (.table (ih .nil made))
  | case5 => cases assigned
  | case6 members name key long origin inner found free ih =>
    obtain ⟨inner, made, rfl⟩ := Option.map_eq_some_iff.1 assigned
    cases h.lookup found with
    | table each => exact h.replace (.table (ih each made))
  | case7 => cases assigned
  | case8 members name key long newest earlier found free ih =>
    obtain ⟨newest, made, rfl⟩ := Option.map_eq_some_iff.1 assigned
    cases h.lookup found with
    | tables each =>
      have ⟨first, others⟩ := List.forall_mem_cons.1 each
      exact h.replace (.tables (List.forall_mem_cons.2 ⟨ih first made, others⟩))
  | case9 => cases assigned

theorem Fits.within {place : String → Members → Option Members}
    (keeps : ∀ {name members result}, Members.Fits range members →
      place name members = some result →
      result.Fits range)
    {key : Key} (h : members.Fits range) (changed : within place key members = some result) :
    result.Fits range := by
  fun_induction Members.within place key members generalizing result with
  | case1 => cases changed
  | case2 name members => exact keeps h changed
  | case3 members name key long fresh ih =>
    obtain ⟨inner, made, rfl⟩ := Option.map_eq_some_iff.1 changed
    exact h.append (.table (ih .nil made))
  | case4 members name key long origin inner found ih =>
    obtain ⟨inner, made, rfl⟩ := Option.map_eq_some_iff.1 changed
    cases h.lookup found with
    | table each => exact h.replace (.table (ih each made))
  | case5 members name key long newest earlier found ih =>
    obtain ⟨newest, made, rfl⟩ := Option.map_eq_some_iff.1 changed
    cases h.lookup found with
    | tables each =>
      have ⟨first, others⟩ := List.forall_mem_cons.1 each
      exact h.replace (.tables (List.forall_mem_cons.2 ⟨ih first made, others⟩))
  | case6 => cases changed

section Assignments

variable {assignments : List Assignment} (each : ∀ a ∈ assignments, a.value.Fits range)
include each

theorem Fits.assignAll (h : members.Fits range)
    (assigned : assignAll assignments members = some result) : result.Fits range := by
  induction assignments generalizing members with
  | nil =>
    cases assigned
    exact h
  | cons a assignments ih =>
    have ⟨first, others⟩ := List.forall_mem_cons.1 each
    rw [Members.assignAll, List.foldlM_cons] at assigned
    obtain ⟨next, made, rest⟩ := Option.bind_eq_some_iff.1 assigned
    exact ih others (h.assign first made) rest

theorem Fits.openTable (h : members.Fits range)
    (opened : openTable assignments name members = some result) : result.Fits range := by
  unfold Members.openTable at opened
  split at opened
  · obtain ⟨inner, made, rfl⟩ := Option.map_eq_some_iff.1 opened
    exact h.append (.table (Fits.nil.assignAll each made))
  · next inner found =>
    obtain ⟨inner, made, rfl⟩ := Option.map_eq_some_iff.1 opened
    cases h.lookup found with
    | table inner => exact h.erase.append (.table (Fits.assignAll each inner made))
  · cases opened

theorem Fits.openNext (h : members.Fits range)
    (opened : openNext assignments name members = some result) : result.Fits range := by
  unfold Members.openNext at opened
  split at opened
  · obtain ⟨inner, made, rfl⟩ := Option.map_eq_some_iff.1 opened
    exact h.append (.tables (List.forall_mem_singleton.2 (Fits.nil.assignAll each made)))
  · next elements found =>
    obtain ⟨inner, made, rfl⟩ := Option.map_eq_some_iff.1 opened
    cases h.lookup found with
    | tables earlier =>
      exact h.replace (.tables (List.forall_mem_cons.2 ⟨Fits.nil.assignAll each made, earlier⟩))
  · cases opened

end Assignments

theorem Fits.add {part : Section} (each : ∀ a ∈ part.assignments, a.value.Fits range)
    (h : members.Fits range) (added : members.add part = some result) : result.Fits range := by
  unfold Members.add at added
  split at added
  · exact h.within (Fits.openTable each) added
  · exact h.within (Fits.openNext each) added

theorem Fits.addAll {parts : List Section}
    (each : ∀ part ∈ parts, ∀ a ∈ part.assignments, a.value.Fits range) (h : members.Fits range)
    (added : parts.foldlM Members.add members = some result) : result.Fits range := by
  induction parts generalizing members with
  | nil =>
    cases added
    exact h
  | cons part parts ih =>
    have ⟨first, others⟩ := List.forall_mem_cons.1 each
    rw [List.foldlM_cons] at added
    obtain ⟨next, made, rest⟩ := Option.bind_eq_some_iff.1 added
    exact ih others (h.add first made) rest

end Members

mutual

theorem Node.Fits.toValue {node : Node} (h : node.Fits range) : node.toValue.Fits range := by
  match node, h with
  | .value _, .value fits => exact fits
  | .table _ members, .table each => exact .table (fits_membersToValues each)
  | .tables elements, .tables each =>
    exact .tables fun v hv => fits_elementsToValues each v (List.mem_reverse.1 hv)

theorem fits_membersToValues {members : List (String × Node)} (h : ∀ m ∈ members, m.2.Fits range) :
    ∀ m ∈ membersToValues members, m.2.Fits range := by
  match members with
  | [] => simp [membersToValues]
  | (name, node) :: members =>
    have ⟨first, others⟩ := List.forall_mem_cons.1 h
    exact List.forall_mem_cons.2 ⟨first.toValue, fits_membersToValues others⟩

theorem fits_elementsToValues {elements : List (List (String × Node))}
    (h : ∀ members ∈ elements, ∀ m ∈ members, m.2.Fits range) :
    ∀ v ∈ elementsToValues elements, v.Fits range := by
  match elements with
  | [] => simp [elementsToValues]
  | element :: elements =>
    have ⟨first, others⟩ := List.forall_mem_cons.1 h
    exact List.forall_mem_cons.2 ⟨.table (fits_membersToValues first), fits_elementsToValues others⟩

end

theorem fits_of_tableOf {assignments : List Assignment} {table : Value}
    (each : ∀ a ∈ assignments, a.value.Fits range) (made : tableOf assignments = some table) :
    table.Fits range := by
  obtain ⟨members, assigned, rfl⟩ := Option.map_eq_some_iff.1 made
  exact .table (fits_membersToValues (Members.Fits.nil.assignAll each assigned))

def Statement.Fits (range : Int → Prop) : Statement → Prop
  | .header _ => True
  | .assign assignment => assignment.value.Fits range

theorem fits_sections {statements : List Statement} (each : ∀ s ∈ statements, s.Fits range) :
    (∀ a ∈ (sections statements).1, a.value.Fits range) ∧
      ∀ part ∈ (sections statements).2, ∀ a ∈ part.assignments, a.value.Fits range := by
  induction statements with
  | nil => simp [sections]
  | cons statement statements ih =>
    have ⟨first, others⟩ := List.forall_mem_cons.1 each
    have ⟨top, parts⟩ := ih others
    cases statement with
    | header header => exact ⟨by simp [sections], List.forall_mem_cons.2 ⟨top, parts⟩⟩
    | assign assignment => exact ⟨List.forall_mem_cons.2 ⟨first, top⟩, parts⟩

theorem fits_of_assemble {statements : List Statement} {table : Value}
    (each : ∀ s ∈ statements, s.Fits range) (made : assemble statements = some table) :
    table.Fits range := by
  have ⟨top, parts⟩ := fits_sections each
  obtain ⟨first, assigned, made⟩ := Option.bind_eq_some_iff.1 made
  obtain ⟨members, added, made⟩ := Option.bind_eq_some_iff.1 made
  cases made
  exact .table (fits_membersToValues ((Members.Fits.nil.assignAll top assigned).addAll parts added))

/-- Does a reader only read values whose integers are of a range? -/
def ReadsFitting (range : Int → Prop) (value : List Char → Option (Value × List Char)) : Prop :=
  ∀ ⦃s v rest⦄, value s = some (v, rest) → v.Fits range

section Readers

variable {value : List Char → Option (Value × List Char)} (reads : ReadsFitting range value)
include reads

theorem fits_of_readAssignment {s rest : List Char} {assignment : Assignment}
    (read : readAssignment value s = some (assignment, rest)) : assignment.value.Fits range := by
  obtain ⟨⟨key, after⟩, -, read⟩ := Option.bind_eq_some_iff.1 read
  dsimp only at read
  split at read
  · obtain ⟨⟨v, end_⟩, found, read⟩ := Option.bind_eq_some_iff.1 read
    cases read
    exact reads found
  · cases read

theorem fits_of_readAssignments {s rest : List Char} {assignments : List Assignment}
    (read : readAssignments value s = some (assignments, rest)) :
    ∀ a ∈ assignments, a.value.Fits range := by
  fun_induction readAssignments value s generalizing assignments rest with
  | case1 => cases read
  | case2 s first after found last closed =>
    cases read
    exact List.forall_mem_singleton.2 (fits_of_readAssignment reads found)
  | case3 s first after found next more shorter ih =>
    obtain ⟨⟨others, end_⟩, tail, same⟩ := Option.map_eq_some_iff.1 read
    cases same
    exact List.forall_mem_cons.2 ⟨fits_of_readAssignment reads found, ih tail⟩
  | case4 => cases read
  | case5 => cases read

theorem fits_of_readItems {s rest : List Char} {items : List Value}
    (read : readItems value s = some (items, rest)) : ∀ v ∈ items, v.Fits range := by
  induction length : s.length using Nat.strongRecOn generalizing s items rest with
  | ind n ih =>
    rw [readItems] at read
    split at read
    · cases read
      simp
    · split at read
      · cases read
      · next v after found =>
        split at read
        · cases read
          exact List.forall_mem_singleton.2 (reads found)
        · split at read
          · next next comma shorter =>
            obtain ⟨⟨others, end_⟩, tail, same⟩ := Option.map_eq_some_iff.1 read
            cases same
            exact List.forall_mem_cons.2 ⟨reads found, ih _ (length ▸ shorter) tail rfl⟩
          · cases read
        · cases read

end Readers

theorem fits_of_integer {n : Int} {value : Value} (read : integer n = some value) :
    value.Fits (· < 0x8000000000000000) := by
  unfold integer at read
  split at read
  · next within =>
    cases read
    exact .integer within.2
  · cases read

theorem fits_of_decimal {negative : Bool} {whole fraction : List Char} {exponent : Option Int}
    {value : Value} (read : decimal negative whole fraction exponent = some value) :
    value.Fits (· < 0x8000000000000000) := by
  unfold decimal at read
  split at read
  · exact fits_of_integer read
  · dsimp only at read
    split at read
    · cases read
    · cases read
      exact .float _

theorem fits_of_readBase {base : Nat} {isDigit : Char → Bool} {s rest : List Char} {value : Value}
    (read : readBase base isDigit s = some (value, rest)) :
    value.Fits (· < 0x8000000000000000) := by
  obtain ⟨digits, -, read⟩ := Option.bind_eq_some_iff.1 read
  obtain ⟨n, made, read⟩ := Option.bind_eq_some_iff.1 read
  cases read
  exact fits_of_integer made

theorem reads_readNumber : ReadsFitting (· < 0x8000000000000000) readNumber := by
  intro s value rest read
  unfold readNumber at read
  split at read
  · exact fits_of_readBase read
  · exact fits_of_readBase read
  · exact fits_of_readBase read
  · split at read
    · cases read
      exact .float _
    · cases read
      exact .float _
    · obtain ⟨whole, -, read⟩ := Option.bind_eq_some_iff.1 read
      obtain ⟨fraction, -, read⟩ := Option.bind_eq_some_iff.1 read
      obtain ⟨exponent, -, read⟩ := Option.bind_eq_some_iff.1 read
      obtain ⟨n, made, read⟩ := Option.bind_eq_some_iff.1 read
      cases read
      exact fits_of_decimal made

theorem reads_readValue (depth : Nat) :
    ReadsFitting (· < 0x8000000000000000) (readValue depth) := by
  induction depth using Nat.strongRecOn with
  | ind depth ih =>
    intro s value rest read
    unfold readValue at read
    split at read
    · cases read
      exact .boolean true
    · cases read
      exact .boolean false
    · obtain ⟨⟨items, after⟩, found, same⟩ := Option.map_eq_some_iff.1 read
      cases same
      exact .array (fits_of_readItems (ih _ (Nat.lt_succ_self _)) found)
    · split at read
      · cases read
        exact .table (by simp)
      · obtain ⟨⟨assignments, after⟩, found, read⟩ := Option.bind_eq_some_iff.1 read
        obtain ⟨table, made, read⟩ := Option.bind_eq_some_iff.1 read
        cases read
        exact fits_of_tableOf (fits_of_readAssignments (ih _ (Nat.lt_succ_self _)) found) made
    · split at read
      · cases read
        exact .string _
      · split at read
        · cases read
          exact .datetime _
        · exact reads_readNumber read

theorem fits_of_readStatement {s rest : List Char} {statement : Statement}
    (read : readStatement s = some (statement, rest)) :
    statement.Fits (· < 0x8000000000000000) := by
  unfold readStatement at read
  split at read
  · obtain ⟨header, -, same⟩ := Option.map_eq_some_iff.1 read
    cases same
    trivial
  · obtain ⟨header, -, same⟩ := Option.map_eq_some_iff.1 read
    cases same
    trivial
  · obtain ⟨⟨assignment, after⟩, found, same⟩ := Option.map_eq_some_iff.1 read
    cases same
    exact fits_of_readAssignment (reads_readValue maxDepth) found

theorem fits_of_readStatements {s : List Char} {statements : List Statement}
    (read : readStatements s = some statements) :
    ∀ statement ∈ statements, statement.Fits (· < 0x8000000000000000) := by
  fun_induction readStatements s generalizing statements with
  | case1 =>
    cases read
    simp
  | case2 s more rest line shorter ih => exact ih read
  | case3 => cases read
  | case4 => cases read
  | case5 => cases read
  | case6 s more starts first after found rest line shorter ih =>
    obtain ⟨others, tail, rfl⟩ := Option.map_eq_some_iff.1 read
    exact List.forall_mem_cons.2 ⟨fits_of_readStatement found, ih tail⟩
  | case7 => cases read

theorem fits_of_read {text : String} {value : Value} (read : read text = some value) :
    value.Fits (· < 0x8000000000000000) := by
  obtain ⟨statements, found, made⟩ := Option.bind_eq_some_iff.1 read
  exact fits_of_assemble (fits_of_readStatements found) made

end Appliance.Toml
