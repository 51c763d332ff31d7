import Appliance.Toml.Assembly
import Appliance.Toml.Quoted
import Appliance.Toml.Reader

/-! Writing TOML: a table whose tables, and arrays of tables, hold none themselves. Every table
stands under a header of its own, with an empty line before it unless it comes first. A text gets
the plainest quotes that show it without escapes. -/
namespace Appliance.Toml

def isControl (c : Char) : Bool := c.toNat < 0x20 || c = '\x7f'

def longestRun (c : Char) (current longest : Nat) : List Char → Nat
  | [] => max current longest
  | d :: s =>
    if d = c then longestRun c (current + 1) longest s else longestRun c 0 (max current longest) s

namespace Quote

def ofText (s : List Char) : Quote :=
  let control := s.any fun c => isControl c && c ≠ '\t' && c ≠ '\n'
  let backslash := s.contains '\\'
  let lines := s.contains '\n'
  let single := longestRun '\'' 0 0 s
  let double := longestRun '"' 0 0 s
  if !control ∧ !backslash ∧ !lines ∧ double = 0 then basic
  else if !control ∧ !lines ∧ single = 0 then literal
  else if !control ∧ !backslash ∧ double ≤ 2 then longBasic
  else if !control ∧ single ≤ 2 then longLiteral
  else if lines then longBasic
  else basic

def ofName (s : List Char) : Quote :=
  let control := s.any fun c => isControl c && c ≠ '\t'
  if !control ∧ !s.contains '\\' ∧ !s.contains '"' then basic
  else if !control ∧ !s.contains '\'' then literal
  else basic

def marks (quote : Quote) : List Char := List.replicate (if quote.long then 3 else 1) quote.mark

end Quote

def escape (c : Char) : List Char :=
  if c = '\x08' then ['\\', 'b']
  else if c = '\t' then ['\\', 't']
  else if c = '\n' then ['\\', 'n']
  else if c = '\x0c' then ['\\', 'f']
  else if c = '\r' then ['\\', 'r']
  else if c = '\\' then ['\\', '\\']
  else if isControl c then
    ['\\', 'u', '0', '0', (Text.hexDigit (c.toNat / 16)).toUpper, (Text.hexDigit c.toNat).toUpper]
  else [c]

/-- A text with escapes, after `run` marks. A long one keeps its line ends, and two marks in a
row. -/
def escapeAll (long : Bool) (run : Nat) : List Char → List Char
  | [] => []
  | c :: s =>
    if c = '"' then
      if long ∧ run < 2 then '"' :: escapeAll long (run + 1) s
      else '\\' :: '"' :: escapeAll long 0 s
    else if long ∧ c = '\n' then '\n' :: escapeAll long 0 s
    else escape c ++ escapeAll long 0 s

/-- A text between its quotes. A long one with line ends starts on a new line. -/
def Quote.write (quote : Quote) (s : List Char) : List Char :=
  quote.marks ++ (if quote.long ∧ s.contains '\n' then ['\n'] else []) ++
    (if quote.escapes then escapeAll quote.long 0 s else s) ++ quote.marks

def writeText (s : List Char) : List Char := (Quote.ofText s).write s

def writeName (s : List Char) : List Char :=
  if !s.isEmpty ∧ s.all isBare then s else (Quote.ofName s).write s

def writeKey (key : Key) : List Char :=
  ['.'].intercalate (key.map fun name => writeName name.toList)

def writeSimple : Value → Option (List Char)
  | .boolean true => some "true".toList
  | .boolean false => some "false".toList
  | .integer n => if n < 0x8000000000000000 then some (Int.repr n).toList else none
  | .string s => some (writeText s.toList)
  | .datetime t => some t.text.toList
  | _ => none

/-- Two items or more stand on lines of their own, each with a comma after it. -/
def writeItems : List (List Char) → List Char
  | [] => ['[', ']']
  | [item] => '[' :: item ++ [']']
  | items =>
    "[\n".toList ++ items.flatMap (fun item => "    ".toList ++ item ++ ",\n".toList) ++ [']']

def writeValue : Value → Option (List Char)
  | .array items => (items.mapM writeSimple).map writeItems
  | value => writeSimple value

def Assignment.write (assignment : Assignment) : Option (List Char) :=
  (writeValue assignment.value).map fun value =>
    writeKey assignment.key ++ " = ".toList ++ value ++ ['\n']

def Header.write : Header → List Char
  | .table key => '[' :: writeKey key ++ "]\n".toList
  | .next key => "[[".toList ++ writeKey key ++ "]]\n".toList

def writeAll (assignments : List Assignment) : Option (List Char) :=
  (assignments.mapM Assignment.write).map List.flatten

def Section.write (part : Section) : Option (List Char) :=
  (writeAll part.assignments).map (part.header.write ++ ·)

def assignmentsOf : Value → List Assignment
  | .table members => members.map fun (name, value) => ⟨[name], value⟩
  | _ => []

def sectionsOf : String × Value → List Section
  | (name, .tables items) => items.map fun item => ⟨.next [name], assignmentsOf item⟩
  | (name, .table members) => [⟨.table [name], assignmentsOf (.table members)⟩]
  | _ => []

def isSimple : Value → Bool
  | .tables _ => false
  | .table _ => false
  | _ => true

def print (members : List (String × Value)) : Option String := do
  let plain := members.filter (isSimple ·.2)
  let top ← writeAll (assignmentsOf (.table plain))
  let parts ← (members.flatMap sectionsOf).mapM Section.write
  let blocks := if top.isEmpty then parts else top :: parts
  return String.ofList (['\n'].intercalate blocks)

example : print [("vm", .table [("cpus", .integer 2), ("kernel", .string "a\"b")])] =
    some "[vm]\ncpus = 2\nkernel = 'a\"b'\n" := by decide +kernel

end Appliance.Toml
