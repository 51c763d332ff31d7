import Appliance.Data.Value
import Appliance.Text.Hex

/-! Numbers in TOML. Integers fit in 64 bits with a sign; single underscores may stand between
digits. -/
namespace Appliance.Toml

def moreDigits (isDigit : Char → Bool) : List Char → List Char × List Char
  | [] => ([], [])
  | '_' :: c :: s =>
    if isDigit c then
      let (digits, rest) := moreDigits isDigit s
      (c :: digits, rest)
    else ([], '_' :: c :: s)
  | c :: s =>
    if isDigit c then
      let (digits, rest) := moreDigits isDigit s
      (c :: digits, rest)
    else ([], c :: s)

def readDigits (isDigit : Char → Bool) : List Char → Option (List Char × List Char)
  | [] => none
  | c :: s =>
    if isDigit c then
      let (digits, rest) := moreDigits isDigit s
      some (c :: digits, rest)
    else none

def readSign : List Char → Bool × List Char
  | '-' :: s => (true, s)
  | '+' :: s => (false, s)
  | s => (false, s)

def readWhole : List Char → Option (List Char × List Char)
  | '0' :: s => some (['0'], s)
  | s => readDigits Char.isDigit s

def readFraction : List Char → Option (List Char × List Char)
  | '.' :: s => readDigits Char.isDigit s
  | s => some ([], s)

def readExponent : List Char → Option (Option Int × List Char)
  | [] => some (none, [])
  | c :: s =>
    if c = 'e' ∨ c = 'E' then do
      let (negative, s) := readSign s
      let (digits, rest) ← readDigits Char.isDigit s
      let n : Int := Nat.ofDigitChars 10 digits 0
      return (some (if negative then -n else n), rest)
    else some (none, c :: s)

def integer (n : Int) : Option Value :=
  if -0x8000000000000000 ≤ n ∧ n < 0x8000000000000000 then some (.integer n) else none

/-- A number without point and exponent is an integer. A number too far above zero is refused; one
too far below is infinite. -/
def decimal (negative : Bool) (whole fraction : List Char) (exponent : Option Int) :
    Option Value :=
  if fraction.isEmpty ∧ exponent.isNone then
    let n : Int := Nat.ofDigitChars 10 whole 0
    integer (if negative then -n else n)
  else
    let digits := Nat.ofDigitChars 10 (whole ++ fraction) 0
    match Binary64.ofDecimal negative digits (exponent.getD 0 - fraction.length) with
    | .infinite false => none
    | x => some (.float x)

def readBase (base : Nat) (isDigit : Char → Bool) (s : List Char) :
    Option (Value × List Char) := do
  let (digits, rest) ← readDigits isDigit s
  let n := digits.foldl (fun n c => n * base + (Text.hexValue? c).getD 0) 0
  let value ← integer n
  return (value, rest)

def isHex (c : Char) : Bool := (Text.hexValue? c).isSome
def isOctal (c : Char) : Bool := '0' ≤ c && c ≤ '7'
def isBinary (c : Char) : Bool := c = '0' || c = '1'

def readNumber : List Char → Option (Value × List Char)
  | '0' :: 'x' :: s => readBase 16 isHex s
  | '0' :: 'o' :: s => readBase 8 isOctal s
  | '0' :: 'b' :: s => readBase 2 isBinary s
  | s =>
    match readSign s with
    | (negative, 'i' :: 'n' :: 'f' :: rest) => some (.float (.infinite negative), rest)
    | (_, 'n' :: 'a' :: 'n' :: rest) => some (.float .nan, rest)
    | (negative, s) => do
      let (whole, rest) ← readWhole s
      let (fraction, rest) ← readFraction rest
      let (exponent, rest) ← readExponent rest
      let value ← decimal negative whole fraction exponent
      return (value, rest)

end Appliance.Toml
