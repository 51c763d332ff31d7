import Appliance.Repository.KeyStore
import Mathlib.Data.Finmap
import Mathlib.Data.Finset.Sort
import Mathlib.Data.String.Basic

/-! Keys without a disk: tokens under names, and perhaps one more token that is the default. What a
key store is asked and what it answers is said here for such a ring of keys, without any file. -/
namespace Appliance

inductive KeyCall where
  | create (name token : String) (options : KeyOptions)
  | delete (name : String)
  | token (name : String)
  | resolve (name : Option String)
  | list

inductive KeyAnswer where
  | done
  | deleted (wasDefault : Bool)
  | token (text : String)
  | names (names : List String)
  deriving DecidableEq

def KeyCall.name : KeyCall → Option String
  | create name _ _ | delete name | token name | resolve (some name) => some name
  | resolve none | list => none

structure KeyRing where
  tokens : Finmap fun _ : String => String := ∅
  default : Option String := none

namespace KeyRing

def Reserved (name : String) : Prop :=
  name ∈ ["", ".", "..", "default"] ∨ '/' ∈ name.toList ∨ '\\' ∈ name.toList

instance : DecidablePred Reserved := fun _ => inferInstanceAs (Decidable (_ ∨ _ ∨ _))

def trimmed (token : String) : String := String.ofList (Text.trimEnd token.toList)

variable (ring : KeyRing)

def create (name token : String) (options : KeyOptions) : Except RepositoryError Unit × KeyRing :=
  if Reserved name then (.error (.invalidName name), ring)
  else if name ∈ ring.tokens ∧ options.force = false then (.error (.keyExists name), ring)
  else (.ok (), {
    tokens := ring.tokens.insert name token
    default := if options.makeDefault then some token else ring.default })

/-- Was the deleted token the default one? That goes with it. -/
def delete (name : String) : Except RepositoryError Bool × KeyRing :=
  if Reserved name then (.error (.invalidName name), ring)
  else
    match ring.tokens.lookup name with
    | none => (.error (.keyNotFound name), ring)
    | some token =>
      (.ok (ring.default = some token), {
        tokens := ring.tokens.erase name
        default := if ring.default = some token then none else ring.default })

def token (name : String) : Except RepositoryError String :=
  if Reserved name then .error (.invalidName name)
  else
    match ring.tokens.lookup name with
    | none => .error (.keyNotFound name)
    | some token => .ok (trimmed token)

def resolve : Option String → Except RepositoryError String
  | some name => ring.token name
  | none =>
    match ring.default with
    | none => .error .noDefaultKey
    | some token => .ok (trimmed token)

def list : List String := ring.tokens.keys.sort (· ≤ ·)

def call : KeyCall → Except RepositoryError KeyAnswer × KeyRing
  | .create name token options =>
    let (result, after) := ring.create name token options
    (result.map fun _ => .done, after)
  | .delete name =>
    let (result, after) := ring.delete name
    (result.map .deleted, after)
  | .token name => ((ring.token name).map .token, ring)
  | .resolve name => ((ring.resolve name).map .token, ring)
  | .list => (.ok (.names ring.list), ring)

/-! A ring is one token under each of some names, the default one under a name of its own. -/

/-- The token under a name, the default one under its name. -/
def slot (name : String) : Option String :=
  if name = KeyStore.defaultName then ring.default else ring.tokens.lookup name

def keep (name token : String) : KeyRing :=
  if name = KeyStore.defaultName then { ring with default := some token }
  else { ring with tokens := ring.tokens.insert name token }

def drop (name : String) : KeyRing :=
  if name = KeyStore.defaultName then { ring with default := none }
  else { ring with tokens := ring.tokens.erase name }

variable {ring} {name token : String}

theorem slot_default : ring.slot KeyStore.defaultName = ring.default := if_pos rfl

theorem slot_empty (name : String) : ({} : KeyRing).slot name = none := by
  unfold slot
  split <;> rfl

theorem slot_of_ne (h : name ≠ KeyStore.defaultName) : ring.slot name = ring.tokens.lookup name :=
  if_neg h

theorem slot_keep (other : String) :
    (ring.keep name token).slot other = if other = name then some token else ring.slot other := by
  by_cases main : name = KeyStore.defaultName
  · by_cases same : other = name <;> simp_all [slot, keep]
  · rcases eq_or_ne other name with rfl | differs
    · simp [slot, keep, main]
    · simp [slot, keep, main, differs, Finmap.lookup_insert_of_ne]

theorem keep_keep : (ring.keep name token).keep name token = ring.keep name token := by
  by_cases main : name = KeyStore.defaultName <;> simp [keep, main, Finmap.insert_insert]

theorem slot_drop (other : String) :
    (ring.drop name).slot other = if other = name then none else ring.slot other := by
  by_cases main : name = KeyStore.defaultName
  · by_cases same : other = name <;> simp_all [slot, drop]
  · rcases eq_or_ne other name with rfl | differs
    · simp [slot, drop, main]
    · simp [slot, drop, main, differs, Finmap.lookup_erase_ne]

theorem list_empty : ({} : KeyRing).list = [] := by
  simp [list]

theorem mergeSort_eq_list {names : List String} (once : names.Nodup)
    (same : ∀ name, name ∈ names ↔ name ∈ ring.tokens) :
    (names.mergeSort fun a b => a ≤ b) = ring.list := by
  have sorted : (names.mergeSort fun a b => a ≤ b).Pairwise (· ≤ ·) :=
    (List.pairwise_mergeSort (fun a b c => by simpa using le_trans)
      (fun a b => by simpa using le_total a b) names).imp of_decide_eq_true
  have perm : (names.mergeSort fun a b => a ≤ b).Perm ring.list :=
    (List.mergeSort_perm names _).trans <|
      (List.perm_ext_iff_of_nodup once (Finset.sort_nodup _ _)).2 fun name => by
        rw [same, Finset.mem_sort, Finmap.mem_keys]
  exact perm.eq_of_pairwise (fun _ _ _ _ => le_antisymm) sorted (Finset.pairwise_sort _ _)

end KeyRing
end Appliance
