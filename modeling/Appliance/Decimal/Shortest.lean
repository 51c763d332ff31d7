import Appliance.Decimal.Binary64

/-! The shortest decimal that reads back as a given floating-point number, and its text. For one
digit, two digits and so on, the two points of that decimal grid next to the number are tried: the
first grid with a point that rounds to the number wins, and of two such points the nearer one. Where
both are equally near, it is for the style of the text to say which one is taken. -/
namespace Appliance.Binary64

/-- Which of two equally near points is taken: the one with an even last digit, or the one away from
zero. -/
inductive Tie where
  | even
  | away
  deriving DecidableEq, Repr

def Tie.goesBelow : Tie → Nat → Bool
  | even, below => below % 2 == 0
  | away, _ => false

structure Decimal where
  digits : Nat
  exponent : Int
  deriving DecidableEq, Repr

def Decimal.leading (d : Decimal) : Int := d.exponent + (Nat.repr d.digits).length - 1

def Decimal.strip : Nat → Decimal → Decimal
  | 0, d => d
  | steps + 1, d =>
    if d.digits ≠ 0 ∧ d.digits % 10 = 0 then strip steps ⟨d.digits / 10, d.exponent + 1⟩ else d

def firstPlace (num den : Nat) : Nat → Nat
  | 0 => 0
  | steps + 1 => if den ≤ num * 10 then 1 else firstPlace (num * 10) den steps + 1

def leadingOf (num den : Nat) : Int :=
  if den ≤ num then (Nat.repr (num / den)).length - 1 else -(firstPlace num den 400 : Int)

/-- The point of the grid of `places` digits that rounds to `mantissa * 2 ^ exponent`, if one does.
All quantities are quarters of the last bit of the mantissa: the numbers that round to it reach two
quarters up, and two down or one, where the next number down is closer. -/
def onGrid (tie : Tie) (mantissa : Nat) (exponent : Int) (leading : Int) (places : Nat) :
    Option Decimal :=
  let (up, down) := power 2 (exponent - 2)
  let grid := leading - (places - 1)
  let (gridUp, gridDown) := power 10 grid
  let scale := up * gridDown
  let unit := gridUp * down
  let value := 4 * mantissa * scale
  let low := (4 * mantissa - if mantissa = leastFull ∧ minExponent < exponent then 1 else 2) * scale
  let high := (4 * mantissa + 2) * scale
  let reaches (d : Nat) : Bool :=
    let place := d * unit
    if mantissa % 2 = 0 then low ≤ place && place ≤ high else low < place && place < high
  let below := value / unit
  let above := below + 1
  let nearerBelow : Bool :=
    let gapBelow := value - below * unit
    let gapAbove := above * unit - value
    gapBelow < gapAbove || (gapBelow == gapAbove && tie.goesBelow below)
  match reaches below, reaches above with
  | true, true => some ⟨if nearerBelow then below else above, grid⟩
  | true, false => some ⟨below, grid⟩
  | false, true => some ⟨above, grid⟩
  | false, false => none

/-- The shortest decimal that reads back as the positive number `mantissa * 2 ^ exponent`. Seventeen
digits always do. -/
def shortest (tie : Tie) (mantissa : Nat) (exponent : Int) : Decimal :=
  let (up, down) := power 2 exponent
  let leading := leadingOf (mantissa * up) down
  let found := (List.range 17).findSome? fun i => onGrid tie mantissa exponent leading (i + 1)
  (found.getD ⟨0, 0⟩).strip 17

/-- How a number is written: which way a tie goes, which leading exponents are written positionally,
whether a whole number keeps its `.0`, and whether a positive exponent has its sign. -/
structure Style where
  tie : Tie
  lowest : Int
  highest : Int
  pointZero : Bool
  plus : Bool

def Style.canonical : Style := ⟨.even, -6, 20, false, true⟩

def Style.scientific : Style := ⟨.even, -5, 15, true, true⟩

/-- Numbers in messages about TOML: never an exponent, and ties go away from zero. -/
def Style.positional : Style := ⟨.away, -400, 400, true, true⟩

def Style.layout (style : Style) (d : Decimal) : String :=
  let digits := (Nat.repr d.digits).toList
  let leading := d.leading
  let whole := if style.pointZero then [ '.', '0' ] else []
  let text : List Char :=
    if style.lowest ≤ leading ∧ leading ≤ style.highest then
      if 0 ≤ d.exponent then digits ++ List.replicate d.exponent.toNat '0' ++ whole
      else if 0 ≤ leading then
        digits.take (leading.toNat + 1) ++ '.' :: digits.drop (leading.toNat + 1)
      else '0' :: '.' :: List.replicate ((-leading).toNat - 1) '0' ++ digits
    else
      let fraction := if digits.length ≤ 1 then [] else '.' :: digits.drop 1
      let sign := if leading < 0 then ['-'] else if style.plus then ['+'] else []
      digits.take 1 ++ fraction ++ 'e' :: sign ++ (Nat.repr leading.natAbs).toList
  String.ofList text

def text (style : Style) : Binary64 → String
  | nan => "NaN"
  | infinite negative => if negative then "-inf" else "inf"
  | finite negative mantissa exponent =>
    let digits := if mantissa = 0 then ⟨0, 0⟩ else shortest style.tie mantissa exponent
    let positive := style.layout digits
    if negative then "-" ++ positive else positive

example : text .scientific (ofDecimal false 15 (-1)) = "1.5" := by decide +kernel
example : text .scientific (ofDecimal false (2 ^ 64) 0) = "1.8446744073709552e+19" := by
  decide +kernel
example : text .canonical (ofDecimal false (2 ^ 63 - 1) 0) = "9223372036854776000" := by
  decide +kernel
example : text .positional (ofDecimal true 1 (-7)) = "-0.0000001" := by decide +kernel
example : text .scientific (ofDecimal false 5 (-324)) = "5e-324" := by decide +kernel
example : text .scientific (ofDecimal false 104725786090671225 (-2)) = "1047257860906712.2" := by
  decide +kernel
example : text .positional (ofDecimal false 104725786090671225 (-2)) = "1047257860906712.3" := by
  decide +kernel

end Appliance.Binary64
