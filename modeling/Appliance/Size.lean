import Appliance.Text.Blank

/-! Sizes in bytes, as documents write them: a number alone, or a number and a unit. Units are
binary however they are spelled. The text of a size uses the largest unit that divides it. -/
namespace Appliance

/-- A number of bytes; zero stands for a size that is not set. -/
structure Size where
  bytes : UInt64 := 0
  deriving DecidableEq, Repr

instance : Inhabited Size := ⟨{}⟩

inductive SizeError where
  | empty
  | invalidNumber (text : String)
  | unknownUnit (unit : String)
  | overflow (text : String)
  deriving DecidableEq, Repr

def SizeError.message : SizeError → String
  | empty => "empty size expression"
  | invalidNumber text => "invalid number in size '" ++ text ++ "'"
  | unknownUnit unit => "unknown size unit '" ++ unit ++ "'"
  | overflow text => "size '" ++ text ++ "' overflows 64 bits"

namespace Size

/-- `n` times 2^20 bytes, in 64 bits. -/
def mib (n : UInt64) : Size := ⟨n <<< 20⟩

def kibi : Nat := 1024
def mebi : Nat := kibi * 1024
def gibi : Nat := mebi * 1024
def tebi : Nat := gibi * 1024

def limit : Nat := 0x10000000000000000

def units : List (String × Nat) :=
  [("TiB", tebi), ("GiB", gibi), ("MiB", mebi), ("KiB", kibi)]

/-- What a unit multiplies by. Case is ignored, in ASCII only. -/
def factor? (unit : List Char) : Option Nat :=
  match String.ofList (unit.map Char.toLower) with
  | "" | "b" => some 1
  | "k" | "kb" | "kib" => some kibi
  | "m" | "mb" | "mib" => some mebi
  | "g" | "gb" | "gib" => some gibi
  | "t" | "tb" | "tib" => some tebi
  | _ => none

def read (raw : String) : Except SizeError Size :=
  let text := Text.trim raw.toList
  let digits := text.takeWhile Char.isDigit
  let unit := Text.trim (text.dropWhile Char.isDigit)
  let number := Nat.ofDigitChars 10 digits 0
  if text.isEmpty then .error .empty
  else if digits.isEmpty || limit ≤ number then .error (.invalidNumber (String.ofList text))
  else
    match factor? unit with
    | none => .error (.unknownUnit (String.ofList unit))
    | some factor =>
      if limit ≤ number * factor then .error (.overflow (String.ofList text))
      else .ok ⟨.ofNat (number * factor)⟩

def text (size : Size) : String :=
  let n := size.bytes.toNat
  match units.find? fun unit => n != 0 && n % unit.2 == 0 with
  | some (name, factor) => Nat.repr (n / factor) ++ " " ++ name
  | none => Nat.repr n

end Size
end Appliance
