import Appliance.Document
import Appliance.Document.Text

/-! Documents laid over each other from files, over what an appliance is like where no document says
otherwise, with a record of where each layer came from. -/
namespace Appliance

structure Builtin where
  cpus : UInt32 := 1
  ram : Size := .mib 256
  diskSize : Size := .mib 128
  console : Console := .standard
  rootFs : RootFs := .ext2
  maxFds : UInt32 := 1024
  user : String := "appliance"

def Builtin.document (builtin : Builtin) : Document where
  machine := { cpus := builtin.cpus, ram := builtin.ram, diskSize := builtin.diskSize }
  settings := {
    console := some builtin.console, rootFs := some builtin.rootFs, maxFds := builtin.maxFds,
    user := builtin.user }

inductive Source where
  | builtin
  /-- a file, with the digest of its bytes -/
  | file (path digest : String)
  deriving DecidableEq

/-- A document made of layers, the first one lowest. -/
structure Layered where
  created : Time
  document : Document
  sources : List Source

inductive LayerError where
  | nothing
  | unread (path : String) (fault : Fault)
  | notUtf8 (path : String)
  | document (path : String) (error : DocumentError)
  | unwritten (path : String) (fault : Fault)
  deriving DecidableEq

def LayerError.message : LayerError → String
  | nothing => "No configuration layers given"
  | unread path fault => "Failed to read layer " ++ path ++ ": " ++ fault.text
  | notUtf8 path => "Layer " ++ path ++ " is not valid UTF-8"
  | document path error => "Layer " ++ path ++ ": " ++ error.message
  | unwritten path fault => "Failed to write " ++ path ++ ": " ++ fault.text

def Source.toValue : Source → Value
  | builtin => .table [("origin", .string "builtin")]
  | file path digest =>
    .table [("origin", .string "file"), ("path", .string path), ("digest", .string digest)]

namespace Layered

def toValue (layered : Layered) : Value :=
  .table ([
    ("schema_version", .integer 1),
    ("schema_id", .string "appliancectl/layered_config@1"),
    ("created_at", .string layered.created.text)] ++
    (match layered.document.changed with
      | some time => [("modification_time", .string time.text)]
      | none => []) ++ [
    ("content_digest", .string layered.document.digest),
    ("document", layered.document.toValue),
    ("sources", .array (layered.sources.map (·.toValue)))])

def toJson (layered : Layered) : String := Json.pretty layered.toValue

variable {m : Type → Type} [Monad m] [Host m]

def readLayer (path : String) : ExceptT LayerError m (Document × Source) := do
  let bytes ← attempt (.unread path) (Host.read path)
  let info ← attempt (.unread path) (Host.info path)
  let some text := String.fromUTF8? bytes | throw (.notUtf8 path)
  let doc ← (Document.decode text).mapError (LayerError.document path)
  return ({ doc with changed := some info.modified }, .file path (Sha256.hexDigest bytes))

def addLayer (below : Document × List Source) (path : String) :
    ExceptT LayerError m (Document × List Source) := do
  let (layer, source) ← readLayer path
  let now ← Host.now
  return (below.1.overlay layer now, below.2 ++ [source])

def ground (builtin : Bool) : m (Document × List Source) := do
  if builtin then
    let now ← Host.now
    return (Document.overlay {} (Builtin.document {}) now, [.builtin])
  else return ({}, [])

/-- Lays the documents in files over each other, the last one on top. -/
def build (paths : List String) (builtin : Bool) : ExceptT LayerError m Layered := do
  if paths.isEmpty ∧ !builtin then throw .nothing
  else
    let ground ← (ground builtin : m _)
    let (document, sources) ← paths.foldlM addLayer ground
    let now ← Host.now
    return ⟨now, document, sources⟩

def writeFile (layered : Layered) (path : String) : ExceptT LayerError m Unit :=
  attempt (.unwritten path) (Host.write path layered.toJson.toUTF8)

end Layered

end Appliance
