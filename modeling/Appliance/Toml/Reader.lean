import Appliance.Toml.Assembly
import Appliance.Toml.Moment
import Appliance.Toml.Number
import Appliance.Toml.Quoted

/-! Reading TOML. Arrays and inline tables nest at most 79 deep, and a key has at most 79 names. -/
namespace Appliance.Toml

def isBare (c : Char) : Bool := c.isAlphanum || c = '_' || c = '-'

def readName : List Char → Option (String × List Char)
  | '"' :: s => (readQuoted .basic s).map fun (name, rest) => (String.ofList name, rest)
  | '\'' :: s => (readQuoted .literal s).map fun (name, rest) => (String.ofList name, rest)
  | s =>
    let name := s.takeWhile isBare
    if name.isEmpty then none else some (String.ofList name, s.dropWhile isBare)

def readNames (s : List Char) : Option (List String × List Char) :=
  match readName (skip s) with
  | none => none
  | some (name, rest) =>
    match skip rest with
    | '.' :: rest =>
      if _ : rest.length < s.length then
        (readNames rest).map fun (names, rest) => (name :: names, rest)
      else none
    | rest => some ([name], rest)
termination_by s.length

def maxNames : Nat := 79

def readKey (s : List Char) : Option (Key × List Char) := do
  let (names, rest) ← readNames s
  if names.length ≤ maxNames then return (names, rest) else none

def readAssignment (value : List Char → Option (Value × List Char)) (s : List Char) :
    Option (Assignment × List Char) := do
  let (key, rest) ← readKey s
  match rest with
  | '=' :: rest =>
    let (value, rest) ← value (skip rest)
    return (⟨key, value⟩, rest)
  | _ => none

/-- Reads what can follow the bracket of an array. A comma may stand after the last item. -/
def readItems (item : List Char → Option (Value × List Char)) (s : List Char) :
    Option (List Value × List Char) :=
  match skipLines s with
  | ']' :: rest => some ([], rest)
  | start =>
    match item start with
    | none => none
    | some (value, rest) =>
      match skipLines rest with
      | ']' :: rest => some ([value], rest)
      | ',' :: rest =>
        if _ : rest.length < s.length then
          (readItems item rest).map fun (values, rest) => (value :: values, rest)
        else none
      | _ => none
termination_by s.length

/-- Reads what can follow the brace of an inline table that is not empty; it stands on one line. -/
def readAssignments (value : List Char → Option (Value × List Char)) (s : List Char) :
    Option (List Assignment × List Char) :=
  match readAssignment value s with
  | none => none
  | some (assignment, rest) =>
    match skip rest with
    | '\x7d' :: rest => some ([assignment], rest)
    | ',' :: rest =>
      if _ : rest.length < s.length then
        (readAssignments value rest).map fun (assignments, rest) =>
          (assignment :: assignments, rest)
      else none
    | _ => none
termination_by s.length

def readValue : Nat → List Char → Option (Value × List Char)
  | _, 't' :: 'r' :: 'u' :: 'e' :: s => some (.boolean true, s)
  | _, 'f' :: 'a' :: 'l' :: 's' :: 'e' :: s => some (.boolean false, s)
  | depth + 1, '[' :: s =>
    (readItems (readValue depth) s).map fun (values, rest) => (.array values, rest)
  | depth + 1, '\x7b' :: s =>
    match skip s with
    | '\x7d' :: rest => some (.table [], rest)
    | _ => do
      let (assignments, rest) ← readAssignments (readValue depth) s
      let table ← tableOf assignments
      return (table, rest)
  | _, s =>
    match readText s with
    | some (text, rest) => some (.string (String.ofList text), rest)
    | none =>
      match readMoment s with
      | some (moment, rest) => some (.datetime moment, rest)
      | none => readNumber s

def maxDepth : Nat := 79

def readHeader (close : List Char) (s : List Char) : Option (Key × List Char) := do
  let (key, rest) ← readKey s
  if close.isPrefixOf rest then return (key, rest.drop close.length) else none

def readStatement : List Char → Option (Statement × List Char)
  | '[' :: '[' :: s => (readHeader [']', ']'] s).map fun (key, rest) => (.header (.next key), rest)
  | '[' :: s => (readHeader [']'] s).map fun (key, rest) => (.header (.table key), rest)
  | s => (readAssignment (readValue maxDepth) s).map fun (assignment, rest) =>
    (.assign assignment, rest)

def readStatements (s : List Char) : Option (List Statement) :=
  if s.isEmpty then some []
  else
    match endLine? s with
    | some rest => if _ : rest.length < s.length then readStatements rest else none
    | none =>
      match readStatement (skip s) with
      | none => none
      | some (statement, rest) =>
        match endLine? rest with
        | none => none
        | some rest =>
          if _ : rest.length < s.length then
            (readStatements rest).map (statement :: ·)
          else none
termination_by s.length

def dropMark : List Char → List Char
  | '\uFEFF' :: s => s
  | s => s

def read (text : String) : Option Value := (readStatements (dropMark text.toList)).bind assemble

example : readStatements "[a.b] # c\n'd' = [1,\n2]".toList = some [
    .header (.table ["a", "b"]),
    .assign ⟨["d"], .array [.integer 1, .integer 2]⟩] := by cbv
example : read "[a]\n[a]" = none := by cbv

end Appliance.Toml
