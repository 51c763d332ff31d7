import Appliance.Data.Value
import Mathlib.Data.List.Nodup

/-! Shapes of structured data: what can stand on one line, and what stands as a table or as several
tables. Integers are natural numbers below a limit. -/
namespace Appliance.Value

def Below (limit : Nat) (n : Int) : Prop := 0 ≤ n ∧ n < limit

def IsScalar (limit : Nat) : Value → Prop
  | boolean _ => True
  | integer n => Below limit n
  | string _ => True
  | _ => False

def IsInline (limit : Nat) (value : Value) : Prop :=
  value.IsScalar limit ∨ ∃ items, value = .array items ∧ ∀ item ∈ items, item.IsScalar limit

structure IsFlat (limit : Nat) (members : List (String × Value)) : Prop where
  distinct : (members.map (·.1)).Nodup
  isInline : ∀ m ∈ members, m.2.IsInline limit

/-- Is the value a table of inline values, or an array of one such table or more? -/
def IsBlock (limit : Nat) : Value → Prop
  | table members => IsFlat limit members
  | tables items =>
    items ≠ [] ∧ ∀ item ∈ items, ∃ members, item = .table members ∧ IsFlat limit members
  | _ => False

inductive Fits (range : Int → Prop) : Value → Prop
  | null : Fits range .null
  | boolean (b : Bool) : Fits range (.boolean b)
  | integer {n : Int} (mem : range n) : Fits range (.integer n)
  | float (x : Binary64) : Fits range (.float x)
  | string (s : String) : Fits range (.string s)
  | datetime (t : Datetime) : Fits range (.datetime t)
  | array {items : List Value} (each : ∀ item ∈ items, Fits range item) :
      Fits range (.array items)
  | tables {items : List Value} (each : ∀ item ∈ items, Fits range item) :
      Fits range (.tables items)
  | table {members : List (String × Value)} (each : ∀ m ∈ members, Fits range m.2) :
      Fits range (.table members)

end Appliance.Value
