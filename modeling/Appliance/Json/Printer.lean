import Appliance.Data.Value
import Appliance.Decimal.Shortest
import Appliance.Json.Quoted

/-! The two JSON forms of a value: laid out for reading, with two spaces a level and members in
their order, and canonical after RFC 8785, without blanks, members by the UTF-16 order of their
names and every number as the nearest double. -/
namespace Appliance

namespace Text

/-- The units of one character: itself, or a high and a low surrogate. -/
def units16 (c : Char) : List Nat :=
  let n := c.toNat
  if n < 0x10000 then [n] else [0xD800 + (n - 0x10000) / 0x400, 0xDC00 + (n - 0x10000) % 0x400]

def le16 (a b : String) : Bool :=
  !(b.toList.flatMap units16).lex (a.toList.flatMap units16) (· < ·)

example : le16 "😀" "\uffff" = true ∧ le16 "\uffff" "😀" = false := by decide +kernel

end Text

namespace Json

def boolText (b : Bool) : List Char := if b then "true".toList else "false".toList

def newline (level : Nat) : List Char := '\n' :: List.replicate (2 * level) ' '

mutual

def layout (level : Nat) : Value → List Char
  | .null => "null".toList
  | .boolean b => boolText b
  | .integer n => (Int.repr n).toList
  | .float x => (x.text .scientific).toList
  | .string s => quote s
  | .datetime t => quote t.text
  | .array items => '[' :: layoutItems level items ++ [']']
  | .tables items => '[' :: layoutItems level items ++ [']']
  | .table members => '\x7b' :: layoutMembers level members ++ ['\x7d']

def layoutItems (level : Nat) : List Value → List Char
  | [] => []
  | [item] => newline (level + 1) ++ layout (level + 1) item ++ newline level
  | item :: items =>
    newline (level + 1) ++ layout (level + 1) item ++ ',' :: layoutItems level items

def layoutMembers (level : Nat) : List (String × Value) → List Char
  | [] => []
  | [(name, value)] =>
    newline (level + 1) ++ quote name ++ ':' :: ' ' :: layout (level + 1) value ++ newline level
  | (name, value) :: members =>
    newline (level + 1) ++ quote name ++ ':' :: ' ' :: layout (level + 1) value ++
      ',' :: layoutMembers level members

end

def pretty (value : Value) : String := String.ofList (layout 0 value)

/-- An integer as the nearest double prints: up to 2^53 by its own digits. -/
def canonicalInteger (n : Int) : String :=
  if n.natAbs ≤ 0x20000000000000 then Int.repr n
  else (Binary64.ofDecimal (n < 0) n.natAbs 0).text .canonical

def commas : List (List Char) → List Char
  | [] => []
  | [piece] => piece
  | piece :: pieces => piece ++ ',' :: commas pieces

mutual

def canonicalForm : Value → List Char
  | .null => "null".toList
  | .boolean b => boolText b
  | .integer n => (canonicalInteger n).toList
  | .float x => (x.text .canonical).toList
  | .string s => quote s
  | .datetime t => quote t.text
  | .array items => '[' :: commas (canonicalItems items) ++ [']']
  | .tables items => '[' :: commas (canonicalItems items) ++ [']']
  | .table members =>
    let sorted := (canonicalMembers members).mergeSort fun a b => Text.le16 a.1 b.1
    '\x7b' :: commas (sorted.map fun (name, form) => quote name ++ ':' :: form) ++ ['\x7d']

def canonicalItems : List Value → List (List Char)
  | [] => []
  | item :: items => canonicalForm item :: canonicalItems items

def canonicalMembers : List (String × Value) → List (String × List Char)
  | [] => []
  | (name, value) :: members => (name, canonicalForm value) :: canonicalMembers members

end

def canonical (value : Value) : String := String.ofList (canonicalForm value)

end Json

end Appliance
