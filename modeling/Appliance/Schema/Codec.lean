import Appliance.Data.Ascending
import Appliance.Entries
import Appliance.Schema.Fault

/-! Pairs of a reader and a writer: how one kind of thing stands in a document. -/
namespace Appliance

structure Codec (α : Type) where
  read : Format → Value → Except DecodeError α
  write : α → Value

def Value.mismatch {α : Type} (format : Format) (value : Value) (expected : String) :
    Except DecodeError α :=
  .error (.wrongType (.ofValue format value) expected)

/-- The one name of a time that is looked at as a table. -/
def Value.datetimeName : String := "$__toml_private_datetime"

/-- The members of a value that has names: a table, or a time, whose text is its only member. -/
def Value.members? : Value → Option (List (String × Value))
  | .table members => some members
  | .datetime t => some [(datetimeName, .string t.text)]
  | _ => none

def Value.items? : Value → Option (List Value)
  | .array items => some items
  | .tables items => some items
  | _ => none

namespace Codec

def string : Codec String where
  read format
    | .string s => .ok s
    | value => value.mismatch format "a string"
  write := .string

def bool : Codec Bool where
  read format
    | .boolean b => .ok b
    | value => value.mismatch format "a boolean"
  write := .boolean

def natural (limit : Nat) (expected : String) (format : Format) : Value → Except DecodeError Nat
  | .integer n =>
    if 0 ≤ n ∧ n < limit then .ok n.toNat else .error (.wrongValue (.integer n) expected)
  | value => value.mismatch format expected

def u32 : Codec UInt32 where
  read format value := (natural 0x100000000 "u32" format value).map .ofNat
  write n := .integer n.toNat

def u64 : Codec UInt64 where
  read format value := (natural 0x10000000000000000 "u64" format value).map .ofNat
  write n := .integer n.toNat

def size : Codec Size where
  read format
    | .integer n => if n < 0 then .error (.negativeSize n) else .ok ⟨.ofNat n.toNat⟩
    | .string s => (Size.read s).mapError .size
    | value => value.mismatch format "a byte count or a size such as \"256 MiB\""
  write size := .string size.text

def entry : Codec Entry where
  read format value := (string.read format value).map .ofSpelling
  write entry := .string entry.spelling

def sequence {α : Type} (wrap : List Value → Value) (item : Codec α) : Codec (List α) where
  read format value :=
    match value.items? with
    | some items => items.mapM (item.read format)
    | none => value.mismatch format "a sequence"
  write items := wrap (items.map item.write)

def list {α : Type} (item : Codec α) : Codec (List α) := sequence .array item

def records {α : Type} (item : Codec α) : Codec (List α) := sequence .tables item

def parameters : Codec Parameters where
  read format value :=
    match value.members? with
    | some members => do
      let pairs ← members.mapM fun (name, value) => do
        let text ← string.read format value
        return (name, text)
      return .ofPairs pairs
    | none => value.mismatch format "a map"
  write parameters := .table (parameters.pairs.map fun (name, text) => (name, .string text))

def kind : Value → String
  | .null => "none"
  | .boolean _ => "boolean"
  | .integer _ => "integer"
  | .float _ => "float"
  | .string _ => "string"
  | .datetime _ => "datetime"
  | .array _ => "array"
  | .tables _ => "array of tables"
  | .table _ => "table"

def choose {α : Type} (choices : List (String × α)) (name : String) : Except DecodeError α :=
  match choices.find? (·.1 = name) with
  | some choice => .ok choice.2
  | none => .error (.unknownChoice name (choices.map (·.1)))

/-- What a choice may carry: nothing, which TOML writes as an empty table or an empty array and JSON
as `null`. -/
def carriesNothing (format : Format) (value : Value) : Except DecodeError Unit :=
  match format, value with
  | .toml, .table [] | .toml, .array [] | .toml, .tables [] => .ok ()
  | .toml, .table _ | .toml, .array _ => .error .choiceCarriesValues
  | .toml, .tables _ => .error .choiceCarriesTables
  | .toml, value => .error (.choiceCarries (kind value))
  | .json, .null => .ok ()
  | .json, value => value.mismatch .json "unit"

def readChoice {α : Type} (choices : List (String × α)) (format : Format) (value : Value) :
    Except DecodeError α :=
  match value, format with
  | .string name, _ => choose choices name
  | .table [(name, carried)], _ => do
    let choice ← choose choices name
    carriesNothing format carried
    return choice
  | .table [], .toml => .error .noChoice
  | .table _, .toml => .error .severalChoices
  | .table _, .json => .error (.wrongValue .map "map with a single key")
  | _, .toml => .error .notAChoice
  | value, .json => value.mismatch .json "string or map"

/-- A choice that may be absent. In JSON `null` is an absent one. -/
def choice {α : Type} (choices : List (String × α)) (name : α → String) : Codec (Option α) where
  read format value :=
    match format, value with
    | .json, .null => .ok none
    | _, _ => (readChoice choices format value).map some
  write
    | some a => .string (name a)
    | none => .null

/-- A date is a text, or a time in the notation of TOML, or a table of which the first member is
taken; in JSON that has to be the only one. -/
def date : Codec String where
  read format value :=
    match value with
    | .string s => .ok s
    | _ =>
      match value.members? with
      | some [] => .error (.wrongLength 0 "a date string or a TOML datetime")
      | some ((_, first) :: others) => do
        let text ← string.read format first
        if format = .json ∧ others ≠ [] then
          .error (.wrongLength (others.length + 1) "fewer elements in map")
        else return text
      | none => value.mismatch format "a date string or a TOML datetime"
  write := .string

end Codec
end Appliance
