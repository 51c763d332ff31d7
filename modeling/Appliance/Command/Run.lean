import Appliance.Command.Request
import Appliance.Layers
import Appliance.Repository.Push

/-! Running commands. A command writes its result to the standard output, and what else there is to
say to the standard error output. -/
namespace Appliance.Command

structure Report where
  code : UInt8 := 0
  output : String := ""
  messages : List String := []
  deriving DecidableEq

def lines (texts : List String) : String := String.join (texts.map (· ++ "\n"))

def failed (message : String) : Report := ⟨1, "", ["Error: " ++ message]⟩

def report {m : Type → Type} [Monad m] {ε : Type} (message : ε → String)
    (command : ExceptT ε m Report) : m Report := do
  match ← command.run with
  | .ok report => return report
  | .error error => return failed (message error)

variable {m : Type → Type} [Monad m] [Host m]

def store (home keys : Option String) : ExceptT RepositoryError m KeyStore :=
  match keys, home with
  | some directory, _ => return ⟨directory⟩
  | none, some home => return ⟨KeyStore.location home⟩
  | none, none => throw .noHome

def createKey (store : KeyStore) (name token : String) (options : KeyOptions) :
    ExceptT RepositoryError m Report := do
  store.create name token options
  let saved := "Saved key '" ++ name ++ "'"
  let default := "Key '" ++ name ++ "' is now the default"
  return { output := lines (saved :: if options.makeDefault then [default] else []) }

def listKeys (store : KeyStore) : ExceptT RepositoryError m Report := do
  let names ← store.list
  return { output := lines (if names.isEmpty then ["no keys found"] else names) }

def deleteKey (store : KeyStore) (name : String) : ExceptT RepositoryError m Report := do
  let isDefault ← store.delete name
  return { output := lines ["Deleted key '" ++ name ++ "'" ++
    if isDefault then " (and the default key)" else ""] }

def push (send : Upload → ExceptT RepositoryError m Unit) (store : KeyStore)
    (repository target source : String) (key : Option String) :
    ExceptT RepositoryError m Report := do
  let target ← Target.read target
  let receipt ← Order.push store send ⟨repository, target, source, key⟩
  return { output := lines ["Pushed " ++ Nat.repr receipt.bytes ++ " bytes to " ++ receipt.url] }

def text (json : Bool) (doc : Document) : Except DocumentError String :=
  if json then .ok doc.toJson else doc.toToml

def mergeToOutput (layered : Layered) (json : Bool) : Report :=
  if json then { output := layered.toJson }
  else
    match layered.document.toToml with
    | .ok text => { output := text }
    | .error error => failed error.message

def mergeToFile (layered : Layered) (json : Bool) (path : String) : m Report :=
  let written : Report := { messages := ["Wrote merged configuration to " ++ path] }
  if json then report LayerError.message ((fun _ => written) <$> layered.writeFile path)
  else report DocumentError.message ((fun _ => written) <$> layered.document.writeFile path)

def merge (files : List String) (builtin json : Bool) (output : Option String) : m Report :=
  report LayerError.message do
    let layered ← Layered.build files builtin
    match output with
    | none => return mergeToOutput layered json
    | some path => ExceptT.lift (mergeToFile layered json path)

def check (file : String) (json : Bool) : m Report :=
  report DocumentError.message do
    let doc ← Document.loadFile file
    let text ← text json doc
    return {
      output := text
      messages := [
        "Configuration valid: " ++ file,
        "  Programs: " ++ Nat.repr doc.programs.length,
        "  Interfaces: " ++ Nat.repr doc.interfaces.length,
        "  Digest: " ++ doc.digest] }

/-- Runs a command, given how to send an upload and where the user's home is. -/
def Request.run (send : Upload → ExceptT RepositoryError m Unit) (home : Option String)
    (request : Request) : m Report :=
  let withStore (command : KeyStore → ExceptT RepositoryError m Report) : m Report :=
    report RepositoryError.message do command (← store home request.keys)
  match request.action with
  | .createKey name token options => withStore (createKey · name token options)
  | .listKeys => withStore listKeys
  | .deleteKey name => withStore (deleteKey · name)
  | .push repository target source key => withStore (push send · repository target source key)
  | .merge files builtin json output => merge files builtin json output
  | .check file json => check file json

def summary : List String := [
  "Appliance configuration and repository tool",
  "",
  "Usage:",
  "  appliancectl config merge FILES... [--defaults] [--json] [-o PATH]",
  "  appliancectl config check FILE [--json]",
  "  appliancectl repositories keys create NAME TOKEN [--default] [--force]",
  "  appliancectl repositories keys list",
  "  appliancectl repositories keys delete NAME",
  "  appliancectl repositories push REPOSITORY TARGET SOURCE [-k NAME]",
  "",
  "Options of every command: --keys-dir PATH, -v, --help"]

def runLine (send : Upload → ExceptT RepositoryError m Unit) (home : Option String)
    (line : List String) : m Report :=
  match Request.read line with
  | .ok request => request.run send home
  | .error .help => return { output := lines summary }
  | .error .version => return { output := lines ["appliancectl 0.1.0"] }
  | .error .usage => return ⟨2, "", "error: unknown or incomplete command line" :: summary⟩

end Appliance.Command
