import Appliance.Text.Hex

/-! Texts in JSON: quoted, with the quote, the backslash and the control characters below U+0020
escaped and every other character kept. Reading accepts every escape of the format. -/
namespace Appliance.Json
open Text (hexDigit hexNumber? character?)

def escape (c : Char) : List Char :=
  if c = '"' then ['\\', '"']
  else if c = '\\' then ['\\', '\\']
  else if c = '\x08' then ['\\', 'b']
  else if c = '\t' then ['\\', 't']
  else if c = '\n' then ['\\', 'n']
  else if c = '\x0c' then ['\\', 'f']
  else if c = '\r' then ['\\', 'r']
  else if c.toNat < 0x20 then ['\\', 'u', '0', '0', hexDigit (c.toNat / 16), hexDigit c.toNat]
  else [c]

def quote (s : String) : List Char := '"' :: s.toList.flatMap escape ++ ['"']

def unescape? : Char → Option Char
  | '"' => some '"'
  | '\\' => some '\\'
  | '/' => some '/'
  | 'b' => some '\x08'
  | 'f' => some '\x0c'
  | 'n' => some '\n'
  | 'r' => some '\r'
  | 't' => some '\t'
  | _ => none

def joinSurrogates? (high low : Nat) : Option Char :=
  if 0xDC00 ≤ low ∧ low ≤ 0xDFFF then
    character? (0x10000 + (high - 0xD800) * 0x400 + (low - 0xDC00))
  else none

def readQuoted : List Char → Option (List Char × List Char)
  | [] => none
  | '"' :: rest => some ([], rest)
  | '\\' :: 'u' :: a :: b :: c :: d :: rest => do
    let n ← hexNumber? [a, b, c, d]
    if 0xD800 ≤ n ∧ n ≤ 0xDBFF then
      match rest with
      | '\\' :: 'u' :: e :: f :: g :: h :: rest =>
        let low ← hexNumber? [e, f, g, h]
        let x ← joinSurrogates? n low
        let (text, rest) ← readQuoted rest
        return (x :: text, rest)
      | _ => none
    else
      let x ← character? n
      let (text, rest) ← readQuoted rest
      return (x :: text, rest)
  | '\\' :: c :: rest => do
    let x ← unescape? c
    let (text, rest) ← readQuoted rest
    return (x :: text, rest)
  | c :: rest => do
    if c.toNat < 0x20 then none
    else
      let (text, rest) ← readQuoted rest
      return (c :: text, rest)

end Appliance.Json
