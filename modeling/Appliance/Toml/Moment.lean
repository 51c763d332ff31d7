import Appliance.Data.Value

/-! Dates and times in TOML. A date and a time of day have a `T` or a space between them; only both
together may have an offset. -/
namespace Appliance.Toml

def readFixed (width : Nat) (s : List Char) : Option (Nat × List Char) :=
  let digits := s.take width
  if digits.length = width ∧ digits.all Char.isDigit then
    some (Nat.ofDigitChars 10 digits 0, s.drop width)
  else none

def take? (c : Char) : List Char → Option (List Char)
  | d :: s => if c = d then some s else none
  | [] => none

def readDate (s : List Char) : Option (Date × List Char) := do
  let (year, s) ← readFixed 4 s
  let (month, s) ← readFixed 2 (← take? '-' s)
  let (day, s) ← readFixed 2 (← take? '-' s)
  if 1 ≤ month ∧ month ≤ 12 ∧ 1 ≤ day ∧ day ≤ Date.daysIn year month then
    return (⟨year, month, day⟩, s)
  else none

/-- The fraction of a second, of which nine digits count. -/
def readNanoseconds : List Char → Option (Nat × List Char)
  | '.' :: s =>
    let digits := s.takeWhile Char.isDigit
    let nine := (digits ++ List.replicate 9 '0').take 9
    if digits.isEmpty then none else some (Nat.ofDigitChars 10 nine 0, s.dropWhile Char.isDigit)
  | s => some (0, s)

def readClock (s : List Char) : Option (Clock × List Char) := do
  let (hour, s) ← readFixed 2 s
  let (minute, s) ← readFixed 2 (← take? ':' s)
  let (second, s) ← readFixed 2 (← take? ':' s)
  let (nanosecond, s) ← readNanoseconds s
  if hour ≤ 23 ∧ minute ≤ 59 ∧ second ≤ 60 then return (⟨hour, minute, second, nanosecond⟩, s)
  else none

def readShift (sign : Int) (s : List Char) : Option (Option Offset × List Char) := do
  let (hours, s) ← readFixed 2 s
  let (minutes, s) ← readFixed 2 (← take? ':' s)
  if hours ≤ 23 ∧ minutes ≤ 59 then return (some (.minutes (sign * (hours * 60 + minutes))), s)
  else none

def readOffset : List Char → Option (Option Offset × List Char)
  | 'Z' :: s => some (some .utc, s)
  | 'z' :: s => some (some .utc, s)
  | '+' :: s => readShift 1 s
  | '-' :: s => readShift (-1) s
  | s => some (none, s)

def readClockAfter : List Char → Option (Clock × List Char)
  | c :: s => if c = 'T' ∨ c = 't' ∨ c = ' ' then readClock s else none
  | [] => none

def readMoment (s : List Char) : Option (Datetime × List Char) :=
  match readDate s with
  | none => (readClock s).map fun (clock, rest) => (.clock clock, rest)
  | some (date, rest) =>
    match readClockAfter rest with
    | none => some (.date date, rest)
    | some (clock, rest) =>
      (readOffset rest).map fun (offset, rest) => (.both date clock offset, rest)

end Appliance.Toml
