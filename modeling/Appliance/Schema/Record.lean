import Appliance.Schema.Codec

/-! Records: things with named fields, each of which may be absent. An absent field has the empty
value of its type, and a field with that value is not written. -/
namespace Appliance

/-- One field of a record type: its name in documents, how it changes a record when it is read, and
what is written for it. -/
structure Field (ρ : Type) where
  name : String
  read : Format → Value → ρ → Except DecodeError ρ
  write : ρ → Option Value

def Field.of {ρ α : Type} [DecidableEq α] [Inhabited α] (name : String) (codec : Codec α)
    (get : ρ → α) (set : ρ → α → ρ) : Field ρ where
  name := name
  read format value record := (codec.read format value).map (set record)
  write record := if get record = default then none else some (codec.write (get record))

structure Record (ρ : Type) where
  expected : String
  fields : List (Field ρ)

namespace Record

variable {ρ : Type}

def readMember (schema : Record ρ) (format : Format) (record : ρ) (member : String × Value) :
    Except DecodeError ρ :=
  match schema.fields.find? (·.name = member.1) with
  | some field => field.read format member.2 record
  | none => .ok record

def readMembers (schema : Record ρ) [Inhabited ρ] (format : Format)
    (members : List (String × Value)) : Except DecodeError ρ :=
  members.foldlM (schema.readMember format) default

/-- Reads a sequence, which gives the fields in order and may leave out the last ones. JSON refuses
more items than there are fields. -/
def readItems (schema : Record ρ) [Inhabited ρ] (format : Format) (items : List Value) :
    Except DecodeError ρ := do
  let record ← (schema.fields.zip items).foldlM
    (fun record (field, value) => field.read format value record) default
  if format = .json ∧ schema.fields.length < items.length then
    .error (.wrongLength items.length "fewer elements in array")
  else return record

def read (schema : Record ρ) [Inhabited ρ] (format : Format) (value : Value) :
    Except DecodeError ρ :=
  match value.members?, value.items? with
  | some members, _ => schema.readMembers format members
  | _, some items => schema.readItems format items
  | _, _ => value.mismatch format schema.expected

def members (schema : Record ρ) (record : ρ) : List (String × Value) :=
  schema.fields.filterMap fun field => (field.write record).map (field.name, ·)

def codec (schema : Record ρ) [Inhabited ρ] : Codec ρ where
  read := schema.read
  write record := .table (schema.members record)

end Record
end Appliance
