import Appliance.Text.Cut

/-! Reading a command line into words and options. Options may stand between the words; after `--`
everything is a word. An option that carries something takes it from the same argument, after `=` or
right after its letter, or else from the next one, which must not look like an option. -/
namespace Appliance.Command

inductive Takes where
  | nothing
  | tally
  | text
  | path
  deriving DecidableEq

structure Switch where
  name : String
  letter : Option Char := none
  takes : Takes := .nothing

inductive Stop where
  | usage
  | help
  | version
  deriving DecidableEq

abbrev Given := List (String × String)

inductive Argument where
  | word
  | options (given : Given)
  /-- options, of which the last one carries the next argument -/
  | awaiting (given : Given) (switch : Switch)

/-- Gives an option. One that may not be repeated is given once. -/
def give (given : Given) (switch : Switch) (value : String) : Except Stop Given :=
  if switch.name = "help" then .error .help
  else if switch.name = "version" then .error .version
  else if switch.takes = .path ∧ value = "" then .error .usage
  else if switch.takes ≠ .tally ∧ (given.lookup switch.name).isSome then .error .usage
  else .ok (given ++ [(switch.name, value)])

def Switch.carries (switch : Switch) : Bool := switch.takes = .text || switch.takes = .path

def readLong (switches : List Switch) (given : Given) (s : List Char) : Except Stop Argument :=
  let name := s.takeWhile (· ≠ '=')
  match switches.find? (·.name = String.ofList name), s.dropWhile (· ≠ '=') with
  | none, _ => .error .usage
  | some switch, [] =>
    if switch.carries then .ok (.awaiting given switch) else (give given switch "").map .options
  | some switch, _ :: value =>
    if switch.carries then (give given switch (String.ofList value)).map .options else .error .usage

def readLetters (switches : List Switch) (given : Given) : List Char → Except Stop Argument
  | [] => .ok (.options given)
  | c :: s =>
    match switches.find? (·.letter = some c) with
    | none => .error .usage
    | some switch =>
      if switch.carries then
        match s with
        | [] => .ok (.awaiting given switch)
        | '=' :: value => (give given switch (String.ofList value)).map .options
        | value => (give given switch (String.ofList value)).map .options
      else
        match give given switch "" with
        | .ok given => readLetters switches given s
        | .error stop => .error stop

def readArgument (switches : List Switch) (given : Given) (argument : String) :
    Except Stop Argument :=
  match argument.toList with
  | ['-', '-'] => .ok .word
  | '-' :: '-' :: s => readLong switches given s
  | ['-'] => .ok .word
  | '-' :: s => readLetters switches given s
  | _ => .ok .word

def looksLikeOption (argument : String) : Bool :=
  argument.toList.head? = some '-' && argument ≠ "-"

def takeOptions (switches : List Switch) (given : Given) :
    List String → Except Stop (Given × List String)
  | [] => .ok (given, [])
  | argument :: line =>
    match readArgument switches given argument with
    | .error stop => .error stop
    | .ok .word => .ok (given, argument :: line)
    | .ok (.options given) => takeOptions switches given line
    | .ok (.awaiting given switch) =>
      match line with
      | [] => .error .usage
      | value :: line =>
        if looksLikeOption value then .error .usage
        else
          match give given switch value with
          | .error stop => .error stop
          | .ok given => takeOptions switches given line

/-- What a command takes as its words: so many, and whether any number may follow. -/
structure Places where
  each : List Takes := []
  more : Option Takes := none

def Places.next (places : Places) (word : String) : Except Stop Places :=
  let check (takes : Takes) (places : Places) : Except Stop Places :=
    if takes = .path ∧ word = "" then .error .usage else .ok places
  match places.each, places.more with
  | takes :: each, _ => check takes { places with each := each }
  | [], some takes => check takes places
  | [], none => .error .usage

def takeWords (places : Places) : List String → Except Stop (Places × List String)
  | [] => .ok (places, [])
  | word :: line => do
    let places ← places.next word
    let (places, words) ← takeWords places line
    return (places, word :: words)

/-- The options and the words of a line on which options and words may mix. -/
def readLine (switches : List Switch) (places : Places) (given : Given) (line : List String) :
    Except Stop (Given × List String) :=
  match takeOptions switches given line with
  | .error stop => .error stop
  | .ok (given, []) => if places.each.isEmpty then .ok (given, []) else .error .usage
  | .ok (given, word :: rest) =>
    if word = "--" then do
      let (places, words) ← takeWords places rest
      if places.each.isEmpty then return (given, words) else throw .usage
    else
      match places.next word with
      | .error stop => .error stop
      | .ok places =>
        if _ : rest.length < line.length then do
          let (given, words) ← readLine switches places given rest
          return (given, word :: words)
        else .error .usage
termination_by line.length

end Appliance.Command
