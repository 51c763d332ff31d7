import Appliance.Text.Hex
import Appliance.Toml.Line

/-! Quoted texts in TOML. Double quotes allow escapes, single quotes allow none; three quotes in a
row allow line ends too. -/
namespace Appliance.Toml

/-- What a quoted text stands between: one mark or three in a row. -/
structure Quote where
  mark : Char
  long : Bool
  deriving DecidableEq

namespace Quote

def basic : Quote := ⟨'"', false⟩
def literal : Quote := ⟨'\'', false⟩
def longBasic : Quote := ⟨'"', true⟩
def longLiteral : Quote := ⟨'\'', true⟩

def escapes (quote : Quote) : Bool := quote.mark = '"'

end Quote

def unescape? : Char → Option Char
  | '"' => some '"'
  | '\\' => some '\\'
  | 'b' => some '\x08'
  | 'f' => some '\x0c'
  | 'n' => some '\n'
  | 'r' => some '\r'
  | 't' => some '\t'
  | _ => none

def readNumbered (width : Nat) (s : List Char) : Option (Char × List Char) := do
  if s.length < width then none
  else
    let n ← Text.hexNumber? (s.take width)
    let c ← Text.character? n
    return (c, s.drop width)

def readEscape : List Char → Option (Char × List Char)
  | 'u' :: s => readNumbered 4 s
  | 'U' :: s => readNumbered 8 s
  | c :: s => (unescape? c).map (·, s)
  | [] => none

def skipBreak? (s : List Char) : Option (List Char) :=
  (newline? (skip s)).map blanks
where
  blanks : List Char → List Char
    | '\r' :: '\n' :: s => blanks s
    | c :: s => if isBlank c ∨ c = '\n' then blanks s else c :: s
    | [] => []

/-- What the next characters of a quoted text are: some of its own, or its end, before which a long
text may have one or two marks. -/
inductive Piece where
  | more (chars rest : List Char)
  | last (chars rest : List Char)

/-- Reads the next characters of a quoted text. A run of marks shorter than three stays in a long
text; of a longer one the last three close it. -/
def readPiece (quote : Quote) (s : List Char) : Option Piece :=
  match s with
  | [] => none
  | c :: rest =>
    if c = quote.mark then
      if quote.long then
        let run := s.takeWhile (· = quote.mark)
        if run.length < 3 then some (.more run (s.drop run.length))
        else
          let width := min run.length 5
          some (.last (run.take (width - 3)) (s.drop width))
      else some (.last [] rest)
    else if c = '\\' ∧ quote.escapes then
      match if quote.long then skipBreak? rest else none with
      | some rest => some (.more [] rest)
      | none => (readEscape rest).map fun (x, rest) => .more [x] rest
    else
      match if quote.long then newline? s else none with
      | some rest => some (.more ['\n'] rest)
      | none => if isText c then some (.more [c] rest) else none

theorem length_lt_of_readEscape {s rest : List Char} {c : Char}
    (h : readEscape s = some (c, rest)) : rest.length < s.length := by
  unfold readEscape at h
  split at h
  all_goals simp [readNumbered, Option.bind_eq_some_iff] at h
  all_goals grind

theorem length_lt_of_skipBreak? {s rest : List Char} (h : skipBreak? s = some rest) :
    rest.length < s.length := by
  have blanks_le : ∀ s : List Char, (skipBreak?.blanks s).length ≤ s.length := by
    intro s
    fun_induction skipBreak?.blanks s <;> simp_all <;> omega
  obtain ⟨line, hline, rfl⟩ := Option.map_eq_some_iff.1 h
  exact Nat.lt_of_le_of_lt (blanks_le line)
    (Nat.lt_of_lt_of_le (length_lt_of_newline? hline) (length_skip_le s))

theorem length_lt_of_readPiece {quote : Quote} {s chars rest : List Char}
    (h : readPiece quote s = some (.more chars rest)) : rest.length < s.length := by
  unfold readPiece at h
  split at h
  · cases h
  · next c tail =>
    split at h
    · next isMark =>
      split at h
      · dsimp only at h
        split at h
        · cases h
          simp only [isMark, List.length_drop, List.length_cons, List.takeWhile_cons, decide_true,
            if_true]
          omega
        · cases h
      · cases h
    · split at h
      · split at h
        · next line hline =>
          cases h
          split at hline
          · exact Nat.lt_succ_of_lt (length_lt_of_skipBreak? hline)
          · cases hline
        · obtain ⟨⟨x, after⟩, hescape, heq⟩ := Option.map_eq_some_iff.1 h
          cases heq
          exact Nat.lt_succ_of_lt (length_lt_of_readEscape hescape)
      · split at h
        · next line hline =>
          cases h
          split at hline
          · exact length_lt_of_newline? hline
          · cases hline
        · split at h
          · cases h
            simp
          · cases h

def readQuoted (quote : Quote) (s : List Char) : Option (List Char × List Char) :=
  match _h : readPiece quote s with
  | none => none
  | some (.last chars rest) => some (chars, rest)
  | some (.more chars rest) =>
    (readQuoted quote rest).map fun (text, rest) => (chars ++ text, rest)
termination_by s.length
decreasing_by exact length_lt_of_readPiece _h

/-- A line end right after the opening marks of a long text is no part of it. -/
def dropFirstLine (s : List Char) : List Char := (newline? s).getD s

def readText : List Char → Option (List Char × List Char)
  | '"' :: '"' :: '"' :: s => readQuoted .longBasic (dropFirstLine s)
  | '\'' :: '\'' :: '\'' :: s => readQuoted .longLiteral (dropFirstLine s)
  | '"' :: s => readQuoted .basic s
  | '\'' :: s => readQuoted .literal s
  | _ => none

example : readText "\"a\\u00e9\"".toList = some ("aé".toList, []) := by cbv
example : readText "'''\n'a''''x".toList = some ("'a'".toList, ['x']) := by cbv

end Appliance.Toml
