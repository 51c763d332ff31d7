import Appliance.Command.Line
import Appliance.Repository.KeyStore

/-! The commands, and how lines ask for them. A command is found by one name after the other; the
options that every command has may stand before, between and after the names. -/
namespace Appliance.Command

inductive Action where
  | createKey (name token : String) (options : KeyOptions)
  | listKeys
  | deleteKey (name : String)
  | push (repository target source : String) (key : Option String)
  | merge (files : List String) (builtin json : Bool) (output : Option String)
  | check (file : String) (json : Bool)

structure Request where
  keys : Option String
  action : Action

def following : List String → List String
  | [] => ["repositories", "config", "help"]
  | ["repositories"] => ["keys", "push", "help"]
  | ["repositories", "keys"] => ["create", "list", "delete", "help"]
  | ["config"] => ["merge", "check", "help"]
  | _ => []

def leads (path : List String) : List String → Bool
  | [] => true
  | name :: names => (following path).contains name && leads (path ++ [name]) names

def common : List Switch := [
  ⟨"verbose", some 'v', .tally⟩, ⟨"keys-dir", none, .path⟩, ⟨"help", some 'h', .nothing⟩]

def outermost : List Switch := common ++ [⟨"version", some 'V', .nothing⟩]

/-- A directory that is named further in counts before one that is named further out. -/
def innermost (given : Given) (keys : Option String) : Option String :=
  match given.lookup "keys-dir" with
  | some keys => some keys
  | none => keys

def findCommand (keys : Option String) (path : List String) (line : List String) :
    Except Stop (Option String × List String × List String) :=
  if (following path).isEmpty then .ok (keys, path, line)
  else
    match takeOptions (if path.isEmpty then outermost else common) [] line with
    | .error stop => .error stop
    | .ok (_, []) => .error .usage
    | .ok (given, name :: rest) =>
      if !(following path).contains name then .error .usage
      else if name = "help" then .error (if leads path rest then .help else .usage)
      else if _ : rest.length < line.length then
        findCommand (innermost given keys) (path ++ [name]) rest
      else .error .usage
termination_by line.length

def has (given : Given) (name : String) : Bool := (given.lookup name).isSome

def Request.read (line : List String) : Except Stop Request := do
  let (keys, path, rest) ← findCommand none [] line
  let finish (switches : List Switch) (places : Places)
      (action : Given → List String → Option Action) : Except Stop Request := do
    let (given, words) ← readLine (common ++ switches) places [] rest
    match action given words with
    | some action => return ⟨innermost given keys, action⟩
    | none => throw .usage
  match path with
  | ["repositories", "keys", "create"] =>
    finish [⟨"default", none, .nothing⟩, ⟨"force", none, .nothing⟩] ⟨[.text, .text], none⟩
      fun given words =>
        match words with
        | [name, token] => some (.createKey name token ⟨has given "default", has given "force"⟩)
        | _ => none
  | ["repositories", "keys", "list"] => finish [] ⟨[], none⟩ fun _ _ => some .listKeys
  | ["repositories", "keys", "delete"] =>
    finish [] ⟨[.text], none⟩ fun _ words => words.head?.map .deleteKey
  | ["repositories", "push"] =>
    finish [⟨"key", some 'k', .text⟩] ⟨[.text, .text, .path], none⟩ fun given words =>
      match words with
      | [repository, target, source] =>
        some (.push repository target source (given.lookup "key"))
      | _ => none
  | ["config", "merge"] =>
    finish
      [⟨"defaults", none, .nothing⟩, ⟨"json", none, .nothing⟩, ⟨"output", some 'o', .path⟩]
      ⟨[.path], some .path⟩ fun given words =>
        some (.merge words (has given "defaults") (has given "json") (given.lookup "output"))
  | ["config", "check"] =>
    finish [⟨"json", none, .nothing⟩] ⟨[.path], none⟩ fun given words =>
      words.head?.map (.check · (has given "json"))
  | _ => throw .usage

end Appliance.Command
