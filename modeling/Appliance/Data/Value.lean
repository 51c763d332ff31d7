import Appliance.Decimal.Binary64
import Appliance.Time

/-! Structured data, as configuration formats write it. Dates and times of day stand with an offset
from universal time or without one, and have one canonical text. -/
namespace Appliance

structure Date where
  year : Nat
  month : Nat
  day : Nat
  deriving DecidableEq, Repr

/-- A time of day; a minute may have a sixty-first second. -/
structure Clock where
  hour : Nat
  minute : Nat
  second : Nat
  nanosecond : Nat
  deriving DecidableEq, Repr

inductive Offset where
  | utc
  | minutes (shift : Int)
  deriving DecidableEq, Repr

inductive Datetime where
  | date (date : Date)
  | clock (clock : Clock)
  | both (date : Date) (clock : Clock) (offset : Option Offset)
  deriving DecidableEq, Repr

def Date.daysIn (year month : Nat) : Nat :=
  if month = 2 then
    if year % 4 = 0 ∧ (year % 100 ≠ 0 ∨ year % 400 = 0) then 29 else 28
  else if month = 4 ∨ month = 6 ∨ month = 9 ∨ month = 11 then 30
  else 31

def Date.text (date : Date) : String :=
  Time.padded 4 date.year ++ "-" ++ Time.padded 2 date.month ++ "-" ++ Time.padded 2 date.day

/-- The fraction has no zeros at its end. -/
def Clock.text (clock : Clock) : String :=
  let fraction := (Time.padded 9 clock.nanosecond).toList.reverse.dropWhile (· = '0') |>.reverse
  Time.padded 2 clock.hour ++ ":" ++ Time.padded 2 clock.minute ++ ":" ++ Time.padded 2 clock.second ++
    (if fraction.isEmpty then "" else "." ++ String.ofList fraction)

def Offset.text : Offset → String
  | utc => "Z"
  | minutes shift =>
    (if shift < 0 then "-" else "+") ++ Time.padded 2 (shift.natAbs / 60) ++ ":" ++
      Time.padded 2 (shift.natAbs % 60)

def Datetime.text : Datetime → String
  | .date d => d.text
  | .clock c => c.text
  | .both d c offset =>
    d.text ++ "T" ++ c.text ++ (match offset with | none => "" | some o => o.text)

/-- A value of a format. The members of a table are in the order of the text, unless the format
has none. -/
inductive Value where
  | null
  | boolean (b : Bool)
  | integer (n : Int)
  | float (x : Binary64)
  | string (s : String)
  | datetime (t : Datetime)
  | array (items : List Value)
  /-- an array whose items are tables, each written under a header of its own -/
  | tables (items : List Value)
  | table (members : List (String × Value))

instance : Inhabited Value := ⟨.null⟩

end Appliance
