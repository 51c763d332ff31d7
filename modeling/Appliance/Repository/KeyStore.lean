import Appliance.Files.Host
import Appliance.Files.Path
import Appliance.Text.Blank

/-! Named tokens, each in a file of its name in one directory. One more file, `default`, holds a
copy of the token that is used when no name is given. -/
namespace Appliance

inductive RepositoryError where
  | keyNotFound (name : String)
  | noDefaultKey
  | keyExists (name : String)
  | invalidName (name : String)
  | invalidTarget (text : String)
  | sourceMissing (path : String)
  | uploadFailed (status body : String)
  | transport (text : String)
  | noHome
  | access (path : String) (fault : Fault)
  deriving DecidableEq

def RepositoryError.message : RepositoryError → String
  | keyNotFound name => "Key '" ++ name ++ "' not found"
  | noDefaultKey =>
    "No authentication key available: provide --key NAME or create a default key with \x60" ++
      "repositories keys create NAME TOKEN --default\x60"
  | keyExists name => "Key '" ++ name ++ "' already exists; provide --force to overwrite"
  | invalidName name => "Invalid key name '" ++ name ++ "'"
  | invalidTarget text => "Invalid target '" ++ text ++ "': expected ORG/BUCKET/APP"
  | sourceMissing path => "Package source not found: " ++ path
  | uploadFailed status body => "Upload failed: " ++ status ++ ": " ++ body
  | transport text => "Transport error: " ++ text
  | noHome => "Could not determine home directory"
  | access path fault => "I/O error on " ++ path ++ ": " ++ fault.text

structure KeyStore where
  directory : String
  deriving DecidableEq

structure KeyOptions where
  makeDefault : Bool := false
  force : Bool := false

namespace KeyStore

def defaultName : String := "default"

def location (home : String) : String := Path.join home ".appliancectl/repository-keys"

/-- Can a key have this name? It has to be the name of one file in the directory. -/
def validName (name : String) : Bool :=
  name ≠ "" && name ≠ "." && name ≠ ".." && name ≠ defaultName &&
    !name.toList.contains '/' && !name.toList.contains '\\'

def path (store : KeyStore) (name : String) : String := Path.join store.directory name

variable {m : Type → Type} [Monad m] [Host m]

def checkName (name : String) : ExceptT RepositoryError m Unit :=
  if validName name then pure () else throw (.invalidName name)

def writeSecret (path token : String) : ExceptT RepositoryError m Unit := do
  attempt (.access path) (Host.write path token.toUTF8)
  attempt (.access path) (Host.protect path)

def reaches (path : String) : m Bool := (·.isOk) <$> Host.info path

def create (store : KeyStore) (name token : String) (options : KeyOptions) :
    ExceptT RepositoryError m Unit := do
  checkName name
  attempt (.access store.directory) (Host.makeDirectories store.directory)
  let path := store.path name
  if !options.force then
    if ← reaches path then throw (.keyExists name)
  writeSecret path token
  if options.makeDefault then writeSecret (store.path defaultName) token

def list (store : KeyStore) : ExceptT RepositoryError m (List String) := do
  match ← Host.list store.directory with
  | .error .notFound => return []
  | .error fault => throw (.access store.directory fault)
  | .ok entries =>
    let names := (entries.filter fun (name, regular) => regular ∧ name ≠ defaultName).map (·.1)
    return names.mergeSort fun a b => a ≤ b

def readIfPresent (path : String) : ExceptT RepositoryError m (Option ByteArray) := do
  match ← Host.read path with
  | .ok bytes => return some bytes
  | .error .notFound => return none
  | .error fault => throw (.access path fault)

/-- Takes a key away, and the default with it where it is the same token. Was it? -/
def delete (store : KeyStore) (name : String) : ExceptT RepositoryError m Bool := do
  checkName name
  let path := store.path name
  let some key ← readIfPresent path | throw (.keyNotFound name)
  let defaultPath := store.path defaultName
  let isDefault := (← readIfPresent defaultPath).map (·.data) = some key.data
  if isDefault then attempt (.access defaultPath) (Host.remove defaultPath)
  attempt (.access path) (Host.remove path)
  return isDefault

def readToken (path : String) : ExceptT RepositoryError m (Option String) := do
  match ← readIfPresent path with
  | none => return none
  | some bytes =>
    match String.fromUTF8? bytes with
    | some text => return some (String.ofList (Text.trimEnd text.toList))
    | none => throw (.access path .notUtf8)

def token (store : KeyStore) (name : String) : ExceptT RepositoryError m String := do
  checkName name
  let some token ← readToken (store.path name) | throw (.keyNotFound name)
  return token

def resolve (store : KeyStore) : Option String → ExceptT RepositoryError m String
  | some name => store.token name
  | none => do
    let some token ← readToken (store.path defaultName) | throw .noDefaultKey
    return token

end KeyStore

end Appliance
