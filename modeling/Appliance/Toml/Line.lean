/-! The lines of TOML: which characters a text may hold, and what may stand between two things.
A line ends with a line feed, before which a carriage return may stand. -/
namespace Appliance.Toml

def isBlank (c : Char) : Bool := c = ' ' || c = '\t'

def skip (s : List Char) : List Char := s.dropWhile isBlank

/-- The characters of comments and of quoted texts: of the control characters only the tab. -/
def isText (c : Char) : Bool := c = '\t' || (0x20 ≤ c.toNat && c ≠ '\x7f')

def newline? : List Char → Option (List Char)
  | '\n' :: s => some s
  | '\r' :: '\n' :: s => some s
  | _ => none

theorem length_skip_le (s : List Char) : (skip s).length ≤ s.length :=
  (List.dropWhile_sublist isBlank).length_le

theorem length_lt_of_newline? {s rest : List Char} (h : newline? s = some rest) :
    rest.length < s.length := by
  unfold newline? at h
  split at h
  · cases h
    exact Nat.lt_succ_self _
  · cases h
    exact Nat.lt_succ_of_lt (Nat.lt_succ_self _)
  · cases h

def skipComment : List Char → List Char
  | '#' :: s => s.dropWhile isText
  | s => s

theorem length_skipComment_le (s : List Char) : (skipComment s).length ≤ s.length := by
  unfold skipComment
  split
  · next rest =>
    exact Nat.le_trans (List.dropWhile_sublist isText).length_le (Nat.le_succ rest.length)
  · exact Nat.le_refl _

def endLine? (s : List Char) : Option (List Char) :=
  match skipComment (skip s) with
  | [] => some []
  | s => newline? s

/-- The text after blanks, comments and line ends. A comment that no line end follows stays. -/
def skipLines (s : List Char) : List Char :=
  match _h : newline? (skipComment (skip s)) with
  | some rest => skipLines rest
  | none => skip s
termination_by s.length
decreasing_by
  exact Nat.lt_of_lt_of_le (length_lt_of_newline? _h)
    (Nat.le_trans (length_skipComment_le _) (length_skip_le s))

end Appliance.Toml
