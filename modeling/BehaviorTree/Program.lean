import BehaviorTree.CommandLine
import BehaviorTree.Json.Forms
import BehaviorTree.Json.Writer
import BehaviorTree.Load
import BehaviorTree.Outline
import BehaviorTree.Script
import BehaviorTree.Settings

/-! # The program

What the program prints and how it ends, as a function of its command line, of the files that it
finds, and of the formats that settings and scripts have in these. Settings are loaded first, then
the tree, then the script. Anything that cannot be loaded ends the program before it prints; a tick
that is aborted ends a run after what the ticks before it have printed. -/

namespace BehaviorTree

/-- An error on its way out: what was going on, and what was behind it, the nearest cause first. -/
structure Complaint where
  headline : String
  causes : List String
  deriving DecidableEq

namespace Complaint

/-- A cause that may have several lines, each after the first one under the first. -/
def hang (indent : String) (cause : String) : String :=
  String.ofList (cause.toList.flatMap fun c => if c = '\n' then '\n' :: indent.toList else [c])

/-- Causes with their numbers. -/
def numbered : (n : Nat) → List String → String
  | _, [] => ""
  | n, cause :: rest =>
      "\n    " ++ toString n ++ ": " ++ hang "       " cause ++ numbered (n + 1) rest

def text (complaint : Complaint) : String :=
  let causes := match complaint.causes with
    | [] => ""
    | [cause] => "\n\nCaused by:\n    " ++ hang "    " cause
    | causes => "\n\nCaused by:" ++ numbered 0 causes
  "Error: " ++ complaint.headline ++ causes ++ "\n"

def ofConfigError (e : ConfigError) : Complaint := ⟨e.message, [e.cause]⟩

def ofLoadError (path : String) (e : LoadError) : Complaint :=
  let inner := match e with
    | .unreadable _ fault => [fault.message]
    | _ => []
  ⟨"Failed to compile " ++ path, e.message :: inner⟩

def ofTickError (tick : UInt64) (e : TickError) : Complaint :=
  let inner := match e with
    | .missingCapability .. => []
    | .capabilityFailed _ _ failure => [failure.message]
  ⟨"Tick " ++ toString tick.toNat ++ " aborted", e.message :: inner⟩

end Complaint

/-- How the program ends. -/
structure Ending where
  exitCode : UInt8
  output : String
  errors : String
  deriving DecidableEq

/-- What the texts of settings and of scripts are read as, or why they are refused. -/
structure Formats where
  settings : String → Except String Config
  script : String → Except String Script

namespace Program

/-- The files that the program finds, by their paths. -/
abbrev Files := String → File

def loadTree (files : Files) (config : Config) (path : String) : Except Complaint Tree :=
  (Tree.load config path (files path)).2.mapError (Complaint.ofLoadError path)

def loadAgent (formats : Formats) (files : Files) (path : String) :
    Except Complaint ScriptedAgent :=
  match (files path).text with
  | .error fault => .error ⟨"Failed to read agent script from " ++ path, [fault.message]⟩
  | .ok text => match formats.script text with
    | .error reason => .error ⟨"Failed to parse agent script from " ++ path, [reason]⟩
    | .ok script => .ok (.ofScript script)

def tickLine (tick : UInt64) (status : Status) : String :=
  "tick " ++ toString tick.toNat ++ ": " ++ status.display ++ "\n"

def countLine (name : String) (n : Nat) : String :=
  name ++ ": " ++ toString n ++ " invocation(s)\n"

/-- Ticks a tree up to `n` times: the lines of the ticks that came to an end, and the agent after
them or the error that aborted one. -/
def runTicks : (n : Nat) → Tree → ScriptedAgent →
    List String × Except Complaint ScriptedAgent
  | 0, _, state => ([], .ok state)
  | n + 1, tree, state =>
      let ticked := tree.tick ScriptedAgent.agent state
      match ticked.outcome with
      | .error e => ([], .error (.ofTickError tree.ticks e))
      | .ok status =>
          let (lines, result) := runTicks n ticked.tree ticked.agent
          (tickLine tree.ticks status :: lines, result)

/-- What a command prints, and the complaint that it ends with, if any. -/
def perform (formats : Formats) (files : Files) (config : Config) :
    Command → String × Except Complaint Unit
  | .check path => match loadTree files config path with
    | .error e => ("", .error e)
    | .ok tree => (path ++ ": ok (" ++ toString tree.size ++ " nodes)\n", .ok ())
  | .dump path json => match loadTree files config path with
    | .error e => ("", .error e)
    | .ok tree =>
        (if json then tree.root.toJson.pretty ++ "\n" else tree.root.outline, .ok ())
  | .run path agentPath ticks => match loadTree files config path with
    | .error e => ("", .error e)
    | .ok tree => match loadAgent formats files agentPath with
      | .error e => ("", .error e)
      | .ok state => match runTicks ticks.toNat tree state with
        | (lines, .error e) => (String.join lines, .error e)
        | (lines, .ok state) =>
            let counts := state.invocations.entries.map fun (name, n) => countLine name n
            (String.join (lines ++ counts), .ok ())

def answer (formats : Formats) (files : Files) (request : Request) : Ending :=
  let settings := request.config.map fun path => (path, files path)
  match Config.loadOrDefault formats.settings settings with
  | .error e => ⟨1, "", (Complaint.ofConfigError e).text⟩
  | .ok config => match perform formats files config request.command with
    | (output, .ok ()) => ⟨0, output, ""⟩
    | (output, .error e) => ⟨1, output, e.text⟩

def usage : String :=
  "Usage: arbor [-c FILE] [-v] check TREE\n" ++
  "       arbor [-c FILE] [-v] dump [--json] TREE\n" ++
  "       arbor [-c FILE] [-v] run -a FILE [-t N] TREE\n"

/-- The program on a command line. -/
def run (formats : Formats) (files : Files) (args : List String) : Ending :=
  match CommandLine.read args with
  | .ok request => answer formats files request
  | .error .version => ⟨0, "arbor 0.1.0\n", ""⟩
  | .error .help => ⟨0, usage, ""⟩
  | .error .misuse => ⟨2, "", usage⟩

end Program

end BehaviorTree
