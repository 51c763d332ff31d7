import Appliance.Data.Ascending
import Appliance.Data.Value
import Appliance.Json.Quoted

/-! Reading JSON. An object holds each name once, in code point order, with the last value that the
text gives it. Integers that fit in 64 bits, signed or not, are integers; all other numbers are
floating point, `-0` too. Values nest at most 127 deep. -/
namespace Appliance.Json

def isBlank (c : Char) : Bool := c = ' ' || c = '\t' || c = '\n' || c = '\r'

def skip (s : List Char) : List Char := s.dropWhile isBlank

def expect? : List Char → List Char → Option (List Char)
  | [], s => some s
  | c :: text, d :: s => if c = d then expect? text s else none
  | _ :: _, [] => none

def spanDigits (s : List Char) : List Char × List Char :=
  (s.takeWhile Char.isDigit, s.dropWhile Char.isDigit)

def readFraction : List Char → Option (List Char × List Char)
  | '.' :: s =>
    let (digits, rest) := spanDigits s
    if digits.isEmpty then none else some (digits, rest)
  | s => some ([], s)

def readPower (negative : Bool) (s : List Char) : Option (Int × List Char) :=
  let (digits, rest) := spanDigits s
  let n : Int := Nat.ofDigitChars 10 digits 0
  if digits.isEmpty then none else some (if negative then -n else n, rest)

def readExponent : List Char → Option (Option Int × List Char)
  | c :: s =>
    if c = 'e' ∨ c = 'E' then
      (match s with
        | '+' :: s => readPower false s
        | '-' :: s => readPower true s
        | s => readPower false s).map fun (n, rest) => (some n, rest)
    else some (none, c :: s)
  | [] => some (none, [])

/-- A number without point and exponent is an integer where it fits; a number too large for a
double is refused. -/
def number (negative : Bool) (whole fraction : List Char) (exponent : Option Int) : Option Value :=
  let n := Nat.ofDigitChars 10 whole 0
  let fits := if negative then n ≠ 0 ∧ n ≤ 0x8000000000000000 else n < 0x10000000000000000
  if fraction.isEmpty ∧ exponent.isNone ∧ fits then
    some (.integer (if negative then -(n : Int) else n))
  else
    let digits := Nat.ofDigitChars 10 (whole ++ fraction) 0
    match Binary64.ofDecimal negative digits (exponent.getD 0 - fraction.length) with
    | .infinite _ => none
    | x => some (.float x)

/-- Reads a number after its sign. The whole part has no zero before other digits. -/
def readNumber (negative : Bool) (s : List Char) : Option (Value × List Char) := do
  let (whole, rest) := spanDigits s
  if whole.isEmpty ∨ (whole.head? = some '0' ∧ 1 < whole.length) then none
  else
    let (fraction, rest) ← readFraction rest
    let (exponent, rest) ← readExponent rest
    let value ← number negative whole fraction exponent
    return (value, rest)

def readItems (item : List Char → Option (Value × List Char)) (s : List Char) :
    Option (List Value × List Char) :=
  match item (skip s) with
  | none => none
  | some (value, rest) =>
    match skip rest with
    | ']' :: rest => some ([value], rest)
    | ',' :: rest =>
      if _ : rest.length < s.length then
        (readItems item rest).map fun (values, rest) => (value :: values, rest)
      else none
    | _ => none
termination_by s.length

def readMember (item : List Char → Option (Value × List Char)) (s : List Char) :
    Option ((String × Value) × List Char) :=
  match skip s with
  | '"' :: rest => do
    let (name, rest) ← readQuoted rest
    match skip rest with
    | ':' :: rest =>
      let (value, rest) ← item (skip rest)
      return ((String.ofList name, value), rest)
    | _ => none
  | _ => none

def readMembers (item : List Char → Option (Value × List Char)) (s : List Char) :
    Option (List (String × Value) × List Char) :=
  match readMember item s with
  | none => none
  | some (member, rest) =>
    match skip rest with
    | '\x7d' :: rest => some ([member], rest)
    | ',' :: rest =>
      if _ : rest.length < s.length then
        (readMembers item rest).map fun (members, rest) => (member :: members, rest)
      else none
    | _ => none
termination_by s.length

/-- Reads a value in which at most `depth` brackets are open at a time. -/
def readValue : Nat → List Char → Option (Value × List Char)
  | _, 'n' :: s => (expect? "ull".toList s).map (.null, ·)
  | _, 't' :: s => (expect? "rue".toList s).map (.boolean true, ·)
  | _, 'f' :: s => (expect? "alse".toList s).map (.boolean false, ·)
  | _, '"' :: s => (readQuoted s).map fun (text, rest) => (.string (String.ofList text), rest)
  | _, '-' :: s => readNumber true s
  | depth + 1, '[' :: s =>
    match skip s with
    | ']' :: rest => some (.array [], rest)
    | _ => (readItems (readValue depth) s).map fun (values, rest) => (.array values, rest)
  | depth + 1, '\x7b' :: s =>
    match skip s with
    | '\x7d' :: rest => some (.table [], rest)
    | _ =>
      (readMembers (readValue depth) s).map fun (members, rest) =>
        (.table (Ascending.ofPairs members), rest)
  | _, s => readNumber false s

def maxDepth : Nat := 127

def read (text : String) : Option Value :=
  match readValue maxDepth (skip text.toList) with
  | some (value, rest) => if (skip rest).isEmpty then some value else none
  | none => none

end Appliance.Json
