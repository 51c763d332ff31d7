import Appliance.Data.Value

/-! How the statements of a TOML text make one table. A statement names a place by the names that
lead to it. A table may be made only once: by its header, or by the dotted names that add to it; a
table that only longer headers have named may still get its own. -/
namespace Appliance.Toml

abbrev Key := List String

structure Assignment where
  key : Key
  value : Value

inductive Header where
  | table (key : Key)
  | next (key : Key)

inductive Statement where
  | header (header : Header)
  | assign (assignment : Assignment)

structure Section where
  header : Header
  assignments : List Assignment

/-- What made a table: its own header, a header of a table below it, or a dotted name. -/
inductive Origin where
  | headed | implied | dotted
  deriving DecidableEq

/-- A thing that a name stands for while the statements are taken in. Of an array of tables the
newest comes first. -/
inductive Node where
  | value (value : Value)
  | table (origin : Origin) (members : List (String × Node))
  | tables (elements : List (List (String × Node)))

abbrev Members := List (String × Node)

namespace Members

def replace (members : Members) (name : String) (node : Node) : Members :=
  members.map fun member => if member.1 = name then (name, node) else member

def erase (members : Members) (name : String) : Members := members.filter (·.1 ≠ name)

/-- Gives a place a value. Only tables that no header has made are entered, and only one that dotted
names have made, or an array's newest table, is added to by them. -/
def assign (value : Value) : Key → Members → Option Members
  | [], _ => none
  | [name], members =>
    if (members.lookup name).isSome then none else some (members ++ [(name, .value value)])
  | name :: key, members =>
    match members.lookup name with
    | none => (assign value key []).map fun inner => members ++ [(name, .table .dotted inner)]
    | some (.table origin inner) =>
      if origin = .headed ∨ (origin = .implied ∧ key.length = 1) then none
      else (assign value key inner).map fun inner => members.replace name (.table origin inner)
    | some (.tables (newest :: earlier)) =>
      if key.length = 1 then none
      else (assign value key newest).map fun newest =>
        members.replace name (.tables (newest :: earlier))
    | some _ => none

def assignAll (assignments : List Assignment) (members : Members) : Option Members :=
  assignments.foldlM
    (fun members assignment => members.assign assignment.value assignment.key) members

/-- Changes the table in which the last name of a key has its place. Tables on the way are made
where there are none; of an array the newest is entered. -/
def within (place : String → Members → Option Members) : Key → Members → Option Members
  | [], _ => none
  | [name], members => place name members
  | name :: key, members =>
    match members.lookup name with
    | none => (within place key []).map fun inner => members ++ [(name, .table .implied inner)]
    | some (.table origin inner) =>
      (within place key inner).map fun inner => members.replace name (.table origin inner)
    | some (.tables (newest :: earlier)) =>
      (within place key newest).map fun newest => members.replace name (.tables (newest :: earlier))
    | some _ => none

/-- Makes a table. One that was only implied so far moves to the end. -/
def openTable (assignments : List Assignment) (name : String) (members : Members) :
    Option Members :=
  match members.lookup name with
  | none =>
    (assignAll assignments []).map fun inner => members ++ [(name, .table .headed inner)]
  | some (.table .implied inner) =>
    (assignAll assignments inner).map fun inner =>
      members.erase name ++ [(name, .table .headed inner)]
  | some _ => none

def openNext (assignments : List Assignment) (name : String) (members : Members) : Option Members :=
  match members.lookup name with
  | none => (assignAll assignments []).map fun inner => members ++ [(name, .tables [inner])]
  | some (.tables elements) =>
    (assignAll assignments []).map fun inner =>
      members.replace name (.tables (inner :: elements))
  | some _ => none

def add (members : Members) (part : Section) : Option Members :=
  match part.header with
  | .table key => within (openTable part.assignments) key members
  | .next key => within (openNext part.assignments) key members

end Members

def sections : List Statement → List Assignment × List Section
  | [] => ([], [])
  | .assign assignment :: statements =>
    let (assignments, parts) := sections statements
    (assignment :: assignments, parts)
  | .header header :: statements =>
    let (assignments, parts) := sections statements
    ([], ⟨header, assignments⟩ :: parts)

mutual

def Node.toValue : Node → Value
  | .value value => value
  | .table _ members => .table (membersToValues members)
  | .tables elements => .tables (elementsToValues elements).reverse

def membersToValues : List (String × Node) → List (String × Value)
  | [] => []
  | (name, node) :: members => (name, node.toValue) :: membersToValues members

def elementsToValues : List (List (String × Node)) → List Value
  | [] => []
  | element :: elements => .table (membersToValues element) :: elementsToValues elements

end

def tableOf (assignments : List Assignment) : Option Value :=
  (Members.assignAll assignments []).map fun members => .table (membersToValues members)

def assemble (statements : List Statement) : Option Value := do
  let (assignments, parts) := sections statements
  let members ← Members.assignAll assignments []
  let members ← parts.foldlM Members.add members
  return .table (membersToValues members)

end Appliance.Toml
