/-! The numbers of binary floating point in 64 bits, held exactly: a mantissa of at most 53 bits
and a power of two. Rounding a decimal is arithmetic on naturals. -/
namespace Appliance

/-- A floating-point number; a finite one is `± mantissa * 2 ^ exponent`. -/
inductive Binary64 where
  | nan
  | infinite (negative : Bool)
  | finite (negative : Bool) (mantissa : Nat) (exponent : Int)
  deriving DecidableEq, Repr

namespace Binary64

def precision : Nat := 53

def leastFull : Nat := Nat.pow 2 (precision - 1)

def minExponent : Int := -1074
def maxExponent : Int := 971

/-- `num / den` to the nearest natural number, a half to the even one. -/
def roundHalfEven (num den : Nat) : Nat :=
  let quotient := num / den
  let twice := 2 * (num % den)
  if twice < den ∨ (twice = den ∧ quotient % 2 = 0) then quotient else quotient + 1

/-- The power of a base as a quotient of two naturals, one of which is 1. -/
def power (base : Nat) (exponent : Int) : Nat × Nat :=
  if 0 ≤ exponent then (Nat.pow base exponent.toNat, 1) else (1, Nat.pow base (-exponent).toNat)

def mantissaAt (num den : Nat) (exponent : Int) : Nat :=
  let (up, down) := power 2 exponent
  roundHalfEven (num * down) (den * up)

def ofRatio (negative : Bool) (num den : Nat) : Binary64 :=
  let guess : Int := (num.log2 : Int) - den.log2 - (precision - 1)
  let (up, down) := power 2 guess
  let full := if num * down < leastFull * (den * up) then guess - 1 else guess
  let exponent := max full minExponent
  let mantissa := mantissaAt num den exponent
  let (mantissa, exponent) :=
    if mantissa = 2 * leastFull then (leastFull, exponent + 1) else (mantissa, exponent)
  if maxExponent < exponent then infinite negative else finite negative mantissa exponent

/-- The number nearest to `± digits * 10 ^ exponent`. Far outside the range the powers of ten are
not computed. -/
def ofDecimal (negative : Bool) (digits : Nat) (exponent : Int) : Binary64 :=
  let size : Int := (Nat.repr digits).length + exponent
  if digits = 0 ∨ size < -400 then finite negative 0 minExponent
  else if 400 < size then infinite negative
  else
    let (up, down) := power 10 exponent
    ofRatio negative (digits * up) down

example : ofDecimal false 1 0 = finite false (2 ^ 52) (-52) := by decide +kernel
example : ofDecimal false (2 ^ 53 + 1) 0 = finite false (2 ^ 52) 1 := by decide +kernel
example : ofDecimal true 2 308 = infinite true := by decide +kernel

end Binary64
end Appliance
