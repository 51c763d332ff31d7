import Appliance.Data.Value
import Appliance.Decimal.Shortest
import Appliance.Size
import Appliance.Text.Inspect

/-! What can be wrong with a value that should be a document or a part of one. -/
namespace Appliance

/-- The formats that documents are read from. They differ in how a named choice is written, in
whether `null` exists and in whether surplus items are refused. -/
inductive Format where
  | toml | json
  deriving DecidableEq, Repr

inductive Found where
  | null
  | boolean (b : Bool)
  | integer (n : Int)
  | float (text : String)
  | string (s : String)
  | sequence
  | map
  deriving DecidableEq, Repr

namespace Found

def ofValue (format : Format) : Value → Found
  | .null => null
  | .boolean b => boolean b
  | .integer n => integer n
  | .float x => float (x.text (match format with | .toml => .positional | .json => .scientific))
  | .string s => string s
  | .datetime _ => map
  | .array _ => sequence
  | .tables _ => sequence
  | .table _ => map

def text : Found → String
  | null => "null"
  | boolean b => "boolean `" ++ (if b then "true" else "false") ++ "`"
  | integer n => "integer `" ++ Int.repr n ++ "`"
  | float x => "floating point `" ++ x ++ "`"
  | string s => "string " ++ Text.inspect s
  | sequence => "sequence"
  | map => "map"

end Found

inductive DecodeError where
  | wrongType (found : Found) (expected : String)
  | wrongValue (found : Found) (expected : String)
  | wrongLength (length : Nat) (expected : String)
  | unknownChoice (name : String) (names : List String)
  | noChoice
  | severalChoices
  | notAChoice
  | choiceCarries (kind : String)
  | choiceCarriesValues
  /-- a choice carries tables, each under a header of its own -/
  | choiceCarriesTables
  | size (error : SizeError)
  | negativeSize (n : Int)
  deriving DecidableEq, Repr

namespace DecodeError

def quoteNames (names : List String) : String :=
  ", ".intercalate (names.map fun name => "`" ++ name ++ "`")

def message : DecodeError → String
  | wrongType found expected => "invalid type: " ++ found.text ++ ", expected " ++ expected
  | wrongValue found expected => "invalid value: " ++ found.text ++ ", expected " ++ expected
  | wrongLength length expected => "invalid length " ++ Nat.repr length ++ ", expected " ++ expected
  | unknownChoice name names =>
    "unknown variant `" ++ name ++ "`, expected one of " ++ quoteNames names
  | noChoice => "wanted exactly 1 element, found 0 elements"
  | severalChoices => "wanted exactly 1 element, more than 1 element"
  | notAChoice => "wanted string or table"
  | choiceCarries kind => "expected table, found " ++ kind
  | choiceCarriesValues => "expected empty table"
  | choiceCarriesTables => "expected empty array"
  | size error => error.message
  | negativeSize n => "negative size " ++ Int.repr n

end DecodeError
end Appliance
