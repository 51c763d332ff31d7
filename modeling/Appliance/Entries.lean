import Appliance.Text.Blank
import Appliance.Text.Cut

/-! Lists of entries that can be laid over other lists. A mark before the text of an entry says what
it does to the list it stands in: `!` excludes a value, `~` retracts an earlier entry. Retractions
act before exclusions, and each is matched against the list as it was given, so the order in which
they are carried out does not matter. An argument string is a list of entries too, one a word. -/
namespace Appliance

/-- One element of a list, with its mark taken off. -/
inductive Entry where
  | plain (text : String)
  | exclude (text : String)
  | retract (text : String)
  deriving DecidableEq, Repr

namespace Entry

def spelling : Entry → String
  | plain text => text
  | exclude text => "!" ++ text
  | retract text => "~" ++ text

/-- Reads one spelling. Only the first character can be a mark. -/
def ofSpelling (raw : String) : Entry :=
  match raw.toList with
  | '!' :: text => exclude (String.ofList text)
  | '~' :: text => retract (String.ofList text)
  | _ => plain raw

def text : Entry → String
  | plain text | exclude text | retract text => text

def isPlain : Entry → Bool
  | plain _ => true
  | _ => false

def isRetraction : Entry → Bool
  | retract _ => true
  | _ => false

def excluded? : Entry → Option String
  | exclude text => some text
  | _ => none

@[simp] theorem spelling_ofSpelling (raw : String) : (ofSpelling raw).spelling = raw := by
  unfold ofSpelling
  split
  · next t h => rw [← String.ofList_toList (s := raw), h]; simp [spelling, String.ofList_cons]
  · next t h => rw [← String.ofList_toList (s := raw), h]; simp [spelling, String.ofList_cons]
  · rfl

end Entry

namespace Entries

/-- Is an entry withdrawn by what follows it? The next entry that either retracts its spelling or
repeats it decides. -/
def withdrawn (entry : Entry) : List Entry → Bool
  | [] => false
  | next :: rest =>
    if next = .retract entry.spelling then true
    else if next.spelling = entry.spelling then false
    else withdrawn entry rest

/-- Carries out the retractions: each withdraws itself and the nearest earlier entry of the
spelling it names, if there is one. -/
def retract : List Entry → List Entry
  | [] => []
  | entry :: rest =>
    if entry.isRetraction || withdrawn entry rest then retract rest else entry :: retract rest

/-- Carries out the exclusions: plain values stay, in order, unless the list excludes them. -/
def exclude (entries : List Entry) : List Entry :=
  entries.filter fun
    | .plain text => !entries.contains (.exclude text)
    | _ => false

def layer (lists : List (List Entry)) : List Entry := retract lists.flatten

/-- Lays lists over each other, keeping only the first of equal entries. -/
def layerDistinct (lists : List (List Entry)) : List Entry := retract lists.flatten.eraseDups

def settle (lists : List (List Entry)) : List Entry := exclude (layerDistinct lists)

def unmarked (entries : List Entry) : Bool := entries.all (·.isPlain)

theorem retract_no_retraction (entries : List Entry) :
    ∀ e ∈ retract entries, e.isRetraction = false := by
  induction entries with
  | nil => simp [retract]
  | cons e rest ih =>
    simp only [retract]
    split
    · exact ih
    · next h =>
      simp only [Bool.or_eq_true, not_or, Bool.not_eq_true] at h
      intro x hx
      rcases List.mem_cons.1 hx with rfl | hx
      · exact h.1
      · exact ih x hx

theorem exclude_plain (entries : List Entry) : ∀ e ∈ exclude entries, e.isPlain = true := by
  intro e he
  have := (List.mem_filter.1 he).2
  cases e <;> simp_all [Entry.isPlain]

end Entries

namespace Words

def split (arguments : String) : List Entry :=
  (Text.words arguments.toList).map fun word => .ofSpelling (String.ofList word)

def join (entries : List Entry) : String :=
  String.ofList (Text.join [' '] (entries.map (·.spelling.toList)))

def settle (arguments : List String) : String := join (Entries.settle (arguments.map split))

end Words

end Appliance
