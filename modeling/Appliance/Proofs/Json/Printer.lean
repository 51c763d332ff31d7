import Appliance.Proofs.Data.Value
import Appliance.Proofs.Json.Value
import Appliance.Proofs.Parameters

/-! Reading back the two forms of a value. Both are read as the same value, but for the numbers: the
text keeps neither times nor arrays of tables, and an object has no order. -/
namespace Appliance.Json

mutual

/-- What a written value is read as, given what its numbers are read as. -/
def reread (number : Int → Value) : Value → Value
  | .null => .null
  | .boolean b => .boolean b
  | .integer n => number n
  | .float x => .float x
  | .string s => .string s
  | .datetime t => .string t.text
  | .array items => .array (rereadItems number items)
  | .tables items => .array (rereadItems number items)
  | .table members => .table (Ascending.ofPairs (rereadMembers number members))

def rereadItems (number : Int → Value) : List Value → List Value
  | [] => []
  | item :: items => reread number item :: rereadItems number items

def rereadMembers (number : Int → Value) : List (String × Value) → List (String × Value)
  | [] => []
  | (name, value) :: members => (name, reread number value) :: rereadMembers number members

end

/-- Can the value be read back, with so many brackets left to open? Floating-point numbers are not
covered, and integers are of a kind. -/
inductive Legible (good : Int → Prop) : Nat → Value → Prop
  | null {depth : Nat} : Legible good depth .null
  | boolean {depth : Nat} (b : Bool) : Legible good depth (.boolean b)
  | integer {depth : Nat} {n : Int} (fits : good n) : Legible good depth (.integer n)
  | string {depth : Nat} (s : String) : Legible good depth (.string s)
  | datetime {depth : Nat} (t : Datetime) : Legible good depth (.datetime t)
  | array {depth : Nat} {items : List Value} (each : ∀ item ∈ items, Legible good depth item) :
      Legible good (depth + 1) (.array items)
  | tables {depth : Nat} {items : List Value} (each : ∀ item ∈ items, Legible good depth item) :
      Legible good (depth + 1) (.tables items)
  | table {depth : Nat} {members : List (String × Value)} (distinct : (members.map (·.1)).Nodup)
      (each : ∀ m ∈ members, Legible good depth m.2) : Legible good (depth + 1) (.table members)

section Parts

variable {number : Int → Value}

theorem rereadItems_eq (items : List Value) :
    rereadItems number items = items.map (reread number) := by
  induction items with
  | nil => rfl
  | cons item items ih => rw [rereadItems, ih, List.map_cons]

theorem rereadMembers_eq (members : List (String × Value)) :
    rereadMembers number members = members.map fun m => (m.1, reread number m.2) := by
  induction members with
  | nil => rfl
  | cons m members ih => rw [rereadMembers, ih, List.map_cons]

theorem canonicalItems_eq (items : List Value) :
    canonicalItems items = items.map canonicalForm := by
  induction items with
  | nil => rfl
  | cons item items ih => rw [canonicalItems, ih, List.map_cons]

theorem canonicalMembers_eq (members : List (String × Value)) :
    canonicalMembers members = members.map fun m => (m.1, canonicalForm m.2) := by
  induction members with
  | nil => rfl
  | cons m members ih => rw [canonicalMembers, ih, List.map_cons]

theorem commas_eq (forms : List (List Char)) : commas forms = row [] [] forms := by
  induction forms with
  | nil => rfl
  | cons form forms ih =>
    cases forms with
    | nil => simp [commas, row]
    | cons next forms => rw [commas, ih, row_cons, List.nil_append]; simp

theorem canonicalForm_table (members : List (String × Value)) :
    canonicalForm (.table members) = '\x7b' :: row [] []
      ((members.mergeSort fun a b => Text.le16 a.1 b.1).map fun m =>
        quote m.1 ++ ':' :: canonicalForm m.2) ++ ['\x7d'] := by
  have sorted : (canonicalMembers members).mergeSort (fun a b => Text.le16 a.1 b.1) =
      (members.mergeSort fun a b => Text.le16 a.1 b.1).map fun m => (m.1, canonicalForm m.2) := by
    rw [canonicalMembers_eq]
    exact (@List.map_mergeSort _ _ _ (fun a b => Text.le16 a.1 b.1)
      (fun m : String × Value => (m.1, canonicalForm m.2)) _ fun _ _ _ _ => rfl).symm
  rw [canonicalForm, sorted, commas_eq, List.map_map]
  rfl

theorem blank_nil : Blank [] := fun _ mem => absurd mem List.not_mem_nil

end Parts

section Forms

variable {number : Int → Value} {good : Int → Prop} {depth : Nat} {value : Value}

theorem Legible.reads_canonicalForm (legible : Legible good depth value)
    (numbers : ∀ n, good n → ∀ depth, Reads depth (canonicalInteger n).toList (number n)) :
    Reads depth (canonicalForm value) (reread number value) := by
  induction legible with
  | null => exact reads_null
  | boolean b => exact reads_boolean b
  | integer fits => exact numbers _ fits _
  | string s => exact reads_string s
  | datetime t => exact reads_string t.text
  | @array depth items _ ih | @tables depth items _ ih =>
    rw [canonicalForm, reread, canonicalItems_eq, rereadItems_eq, commas_eq]
    refine reads_array blank_nil blank_nil ?_
    rw [List.forall₂_map_left_iff, List.forall₂_map_right_iff, List.forall₂_same]
    exact ih
  | @table depth members distinct _ ih =>
    -- The sorted members have the same names, each once, so the reader puts them in the same order.
    have perm := List.mergeSort_perm members fun a b => Text.le16 a.1 b.1
    have same : Ascending.ofPairs (members.map fun m => (m.1, reread number m.2)) =
        Ascending.ofPairs ((members.mergeSort fun a b => Text.le16 a.1 b.1).map
          fun m => (m.1, reread number m.2)) := by
      refine Ascending.ofPairs_congr (perm.symm.map _) ?_
      rwa [List.map_map]
    rw [canonicalForm_table, reread, rereadMembers_eq, same]
    refine reads_table blank_nil blank_nil ?_
    rw [List.forall₂_map_left_iff, List.forall₂_map_right_iff, List.forall₂_same]
    exact fun m mem => ⟨[], _, blank_nil, rfl, ih m (perm.mem_iff.1 mem)⟩

theorem read_of_reads {form : List Char} {value : Value} (reads : Reads maxDepth form value) :
    read (String.ofList form) = some value := by
  obtain ⟨c, more, start, opens⟩ := reads.opens
  have whole := reads.reads [] (fun c mem => by simp at mem)
  rw [List.append_nil] at whole
  have first : skip form = form := by
    rw [start]
    exact skip_cons opens.1 more
  rw [read, String.toList_ofList, first, whole]
  rfl

abbrev limit : Nat := 0x10000000000000000

theorem number_toDigits {n : Nat} (small : n < limit) :
    Json.number false (Nat.toDigits 10 n) [] none = some (.integer n) := by
  simp [Json.number, Nat.ofDigitChars_ten_toDigits, small]

end Forms

end Appliance.Json
