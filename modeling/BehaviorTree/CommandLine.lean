import BehaviorTree.Text.Integer

/-! # Command lines

A command line names one of three commands, each on one tree file, with options before or after it.
Options have a long name, and most a letter as well; a value stands in the next argument or is
attached. An option is given at most once before the name of the command and once after it; what
stands after it counts. After a double hyphen everything is a file. The word for help stands in the
place of a command, and may be followed by the name of the one that help is asked for. -/

namespace BehaviorTree

inductive Command where
  | check (tree : String)
  | dump (tree : String) (json : Bool)
  | run (tree agent : String) (ticks : UInt64)
  deriving DecidableEq

/-- A command with the file of its settings, if one is given. -/
structure Request where
  config : Option String
  command : Command
  deriving DecidableEq

/-- Why a command line asks for no command. -/
inductive Usage where
  | version
  | help
  | misuse
  deriving DecidableEq

namespace CommandLine

/-- The names of the commands. -/
inductive Verb where
  | check
  | dump
  | run
  deriving DecidableEq

def verb? (word : String) : Option Verb :=
  match word with
  | "check" => some .check
  | "dump" => some .dump
  | "run" => some .run
  | _ => none

inductive Switch where
  | config
  | verbose
  | json
  | agent
  | ticks
  | version
  | help
  deriving DecidableEq

namespace Switch

def all : List Switch := [.config, .verbose, .json, .agent, .ticks, .version, .help]

def long : Switch → String
  | .config => "config"
  | .verbose => "verbose"
  | .json => "json"
  | .agent => "agent"
  | .ticks => "ticks"
  | .version => "version"
  | .help => "help"

def letter? : Switch → Option Char
  | .config => some 'c'
  | .verbose => some 'v'
  | .json => none
  | .agent => some 'a'
  | .ticks => some 't'
  | .version => some 'V'
  | .help => some 'h'

def takesValue : Switch → Bool
  | .config | .agent | .ticks => true
  | _ => false

/-- Whether an option is known before the command (`none`) or after its name. -/
def knownAt (switch : Switch) (verb : Option Verb) : Bool :=
  match switch with
  | .config | .verbose | .help => true
  | .json => verb == some .dump
  | .agent | .ticks => verb == some .run
  | .version => verb == none

end Switch

/-- What has been read of a command line, before the name of the command or after it. -/
structure Given where
  config : Option String := none
  verbose : Bool := false
  json : Bool := false
  agent : Option String := none
  ticks : Option UInt64 := none
  tree : Option String := none

/-- Fills a place that has to be free with the name of a file, which is not empty. -/
def fill (place : Option String) (value : String) : Except Usage (Option String) :=
  if place.isSome ∨ value = "" then .error .misuse else .ok (some value)

/-- Takes an option without value. -/
def Given.mark (given : Given) : Switch → Except Usage Given
  | .version => .error .version
  | .help => .error .help
  | .verbose => if given.verbose then .error .misuse else .ok { given with verbose := true }
  | .json => if given.json then .error .misuse else .ok { given with json := true }
  | _ => .error .misuse

/-- Takes an option with its value. -/
def Given.assign (given : Given) (value : String) : Switch → Except Usage Given
  | .config => do return { given with config := ← fill given.config value }
  | .agent => do return { given with agent := ← fill given.agent value }
  | .ticks =>
      if given.ticks.isSome then .error .misuse
      else match Text.readInteger .uint64 value with
        | .ok n => .ok { given with ticks := some (UInt64.ofNat n.toNat) }
        | .error _ => .error .misuse
  | _ => .error .misuse

/-- Takes the tree file. -/
def Given.place (given : Given) (value : String) : Except Usage Given := do
  return { given with tree := ← fill given.tree value }

/-- Takes a long option, given without its hyphens. The second part is an option whose value is
still to come. -/
def readLong (verb : Option Verb) (given : Given) (word : List Char) :
    Except Usage (Given × Option Switch) :=
  let (name, attached) := word.span (· != '=')
  match Switch.all.find? fun s => s.long.toList == name && s.knownAt verb with
  | none => .error .misuse
  | some switch => match attached with
    | [] => if switch.takesValue then .ok (given, some switch) else do
        return (← given.mark switch, none)
    | _ :: value => do return (← given.assign (String.ofList value) switch, none)

/-- Takes a run of letters, given without its hyphen. What follows the letter of an option with a
value is that value. -/
def readLetters (verb : Option Verb) : Given → List Char → Except Usage (Given × Option Switch)
  | given, [] => .ok (given, none)
  | given, letter :: rest =>
      match Switch.all.find? fun s => s.letter? == some letter && s.knownAt verb with
      | none => .error .misuse
      | some switch =>
          if switch.takesValue then
            match rest with
            | [] => .ok (given, some switch)
            | '=' :: value => do return (← given.assign (String.ofList value) switch, none)
            | value => do return (← given.assign (String.ofList value) switch, none)
          else do readLetters verb (← given.mark switch) rest

/-- Takes the arguments after a double hyphen. -/
def readFiles (verb : Option Verb) (given : Given) (args : List String) : Except Usage Given :=
  match verb with
  | none => if args.isEmpty then .ok given else .error .misuse
  | some _ => args.foldlM Given.place given

/-- The word that asks how the program is used. -/
def helpWord : String := "help"

/-- What is asked for by the arguments after the word for help: nothing more, or how one command is
used. -/
def helpOn : List String → Usage
  | [] => .help
  | [word] => if (verb? word).isSome ∨ word = helpWord then .help else .misuse
  | _ => .misuse

/-- Reads the arguments before the name of the command, or after it. `pending` is an option that
waits for its value. The second part is the command that was named, and what follows it. -/
def readArgs (verb : Option Verb) : Given → (pending : Option Switch) → List String →
    Except Usage (Given × Option (Verb × List String))
  | given, none, [] => .ok (given, none)
  | _, some _, [] => .error .misuse
  | given, pending, arg :: rest =>
      match arg.toList with
      | ['-', '-'] =>
          if pending.isSome then .error .misuse
          else do return (← readFiles verb given rest, none)
      | '-' :: '-' :: word =>
          if pending.isSome then .error .misuse
          else do
            let (given, pending) ← readLong verb given word
            readArgs verb given pending rest
      | '-' :: letter :: letters =>
          if pending.isSome then .error .misuse
          else do
            let (given, pending) ← readLetters verb given (letter :: letters)
            readArgs verb given pending rest
      | _ => match pending, verb with
        | some switch, _ => do readArgs verb (← given.assign arg switch) none rest
        | none, some _ => do readArgs verb (← given.place arg) none rest
        | none, none => match verb? arg with
          | some named => .ok (given, some (named, rest))
          | none => .error (if arg = helpWord then helpOn rest else .misuse)

/-- The command of a verb with what was given for it. -/
def command (given : Given) : Verb → Except Usage Command
  | .check => match given.tree with
    | some tree => .ok (.check tree)
    | none => .error .misuse
  | .dump => match given.tree with
    | some tree => .ok (.dump tree given.json)
    | none => .error .misuse
  | .run => match given.tree, given.agent with
    | some tree, some agent => .ok (.run tree agent (given.ticks.getD 1))
    | _, _ => .error .misuse

def read (args : List String) : Except Usage Request := do
  match ← readArgs none {} none args with
  | (_, none) => .error .misuse
  | (before, some (verb, rest)) =>
      let (after, _) ← readArgs (some verb) {} none rest
      return ⟨after.config <|> before.config, ← command after verb⟩

end CommandLine

end BehaviorTree
