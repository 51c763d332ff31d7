import Appliance.Digest.Sha256
import Appliance.Document.Overlay
import Appliance.Document.Schema
import Appliance.Files.Host
import Appliance.Files.Path
import Appliance.Json.Printer
import Appliance.Schema.Fault
import Appliance.Toml.Printer

/-! Documents outside the program: as structured data, as JSON with a digest, as TOML, and in files.
A document that comes from a file changed when the file did. -/
namespace Appliance

inductive DocumentError where
  | access (path : String) (fault : Fault)
  | malformed
  | unfit (error : DecodeError)
  /-- TOML has no integer as large as one in the document -/
  | unwritable
  deriving DecidableEq

def DocumentError.message : DocumentError → String
  | access path fault => "Failed to access " ++ path ++ ": " ++ fault.text
  | malformed => "Failed to decode configuration document: TOML parse error"
  | unfit error => "Failed to decode configuration document: TOML parse error: " ++ error.message
  | unwritable => "Failed to encode configuration document: out-of-range value for u64 type"

namespace Document

def toValue (doc : Document) : Value := schema.codec.write doc

def ofValue (format : Format) (value : Value) : Except DecodeError Document :=
  schema.read format value

def toJson (doc : Document) : String := Json.pretty doc.toValue

def canonicalText (doc : Document) : String := Json.canonical doc.toValue

def digest (doc : Document) : String := Sha256.hexDigest doc.canonicalText.toUTF8

/-- Reads a document from a text, marks and all. Its time is not in the text. -/
def decode (text : String) : Except DocumentError Document :=
  match Toml.read text with
  | none => .error .malformed
  | some value => (ofValue .toml value).mapError .unfit

def load (text : String) : Except DocumentError Document := (decode text).map settle

def toToml (doc : Document) : Except DocumentError String :=
  match Toml.print (schema.members doc) with
  | some text => .ok text
  | none => .error .unwritable

variable {m : Type → Type} [Monad m] [Host m]

def decodeFile (path : String) : ExceptT DocumentError m Document := do
  let bytes ← attempt (.access path) (Host.read path)
  let some text := String.fromUTF8? bytes | throw (.access path .notUtf8)
  let info ← attempt (.access path) (Host.info path)
  let doc ← decode text
  return { doc with changed := some info.modified }

def loadFile (path : String) : ExceptT DocumentError m Document := settle <$> decodeFile path

def overlayFile (base : Document) (path : String) : ExceptT DocumentError m Document := do
  let upper ← decodeFile path
  let now ← Host.now
  return base.overlay upper now

def writeFile (doc : Document) (path : String) : ExceptT DocumentError m Unit := do
  let text ← doc.toToml
  attempt (.access path) (Host.write path text.toUTF8)

end Document

end Appliance
