/-! Instants, and their text in the calendar of RFC 3339, in universal time. -/
namespace Appliance

/-- Nanoseconds since 1970-01-01T00:00:00Z. -/
structure Time where
  nanoseconds : Int
  deriving DecidableEq, Repr

namespace Time

def ofSeconds (seconds : Int) : Time := ⟨seconds * 1000000000⟩

def seconds (time : Time) : Int := time.nanoseconds / 1000000000

/-- The civil date of a day counted from the epoch: year, month and day. The count runs in eras of
400 years that start on the first of March, so that a leap day is the last day of its year. -/
def civil (day : Int) : Int × Int × Int :=
  let shifted := day + 719468
  let era := shifted / 146097
  let dayOfEra := shifted % 146097
  let yearOfEra := (dayOfEra - dayOfEra / 1460 + dayOfEra / 36524 - dayOfEra / 146096) / 365
  let dayOfYear := dayOfEra - (365 * yearOfEra + yearOfEra / 4 - yearOfEra / 100)
  let monthFromMarch := (5 * dayOfYear + 2) / 153
  let dayOfMonth := dayOfYear - (153 * monthFromMarch + 2) / 5 + 1
  let month := if monthFromMarch < 10 then monthFromMarch + 3 else monthFromMarch - 9
  (yearOfEra + era * 400 + (if month ≤ 2 then 1 else 0), month, dayOfMonth)

def padded (width : Nat) (n : Nat) : String :=
  let digits := Nat.repr n
  String.ofList (List.replicate (width - digits.length) '0') ++ digits

def yearText (year : Int) : String :=
  let digits := padded 4 year.natAbs
  if 0 ≤ year ∧ year ≤ 9999 then digits else (if year < 0 then "-" else "+") ++ digits

/-- The fraction of a second in three, six or nine digits, the fewest that are exact. -/
def fractionText (nanoseconds : Nat) : String :=
  if nanoseconds = 0 then ""
  else if nanoseconds % 1000000 = 0 then "." ++ padded 3 (nanoseconds / 1000000)
  else if nanoseconds % 1000 = 0 then "." ++ padded 6 (nanoseconds / 1000)
  else "." ++ padded 9 nanoseconds

def text (time : Time) : String :=
  let (year, month, day) := civil (time.seconds / 86400)
  let second := (time.seconds % 86400).toNat
  yearText year ++ "-" ++ padded 2 month.toNat ++ "-" ++ padded 2 day.toNat ++ "T" ++
    padded 2 (second / 3600) ++ ":" ++ padded 2 (second / 60 % 60) ++ ":" ++ padded 2 (second % 60) ++
    fractionText (time.nanoseconds % 1000000000).toNat ++ "Z"

end Time
end Appliance
