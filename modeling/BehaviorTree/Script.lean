import BehaviorTree.Agent

/-! # Scripted agents

A script gives each of its capabilities what to answer, in one of three shapes: always the same, a
list of results in turn, or details with a failure. A scripted agent replays a script. It has
exactly the capabilities of the script and counts their invocations; the answer depends on the
script and on that count alone. -/

namespace BehaviorTree

/-- What a script writes for a capability: one result, results to be taken in turn, or results and
the message of a failure that goes before them. -/
inductive CapabilityScript where
  | constant (result : Bool)
  | cycle (results : List Bool)
  | detailed (results : List Bool) (fail : Option String)
  deriving DecidableEq

/-- The shapes that give these results in turn, and no failure. -/
inductive CapabilityScript.InTurn (results : List Bool) : CapabilityScript → Prop where
  | constant {result : Bool} (only : results = [result]) : InTurn results (.constant result)
  | cycle : InTurn results (.cycle results)
  | detailed : InTurn results (.detailed results none)

/-- What is written for each capability, by name. -/
abbrev Script := NameMap CapabilityScript

/-- What the three shapes come to. -/
structure Behavior where
  results : List Bool
  fail : Option String
  deriving DecidableEq

namespace Behavior

def ofScript : CapabilityScript → Behavior
  | .constant result => ⟨[result], none⟩
  | .cycle results => ⟨results, none⟩
  | .detailed results fail => ⟨results, fail⟩

theorem ofScript_of_inTurn {results : List Bool} {script : CapabilityScript}
    (h : script.InTurn results) : ofScript script = ⟨results, none⟩ := by
  cases h with
  | constant only => rw [ofScript, only]
  | cycle => rfl
  | detailed => rfl

/-- The answer to the invocation with this number, the first one having number 0. Without results
the answer is true. -/
def reply (behavior : Behavior) (n : Nat) : Except Failure Bool :=
  match behavior.fail with
  | some message => .error ⟨message⟩
  | none => match behavior.results[n % behavior.results.length]? with
    | none => .ok true
    | some result => .ok result

end Behavior

/-- An agent that replays a script, with the number of invocations of each capability. -/
structure ScriptedAgent where
  behaviors : NameMap Behavior
  invocations : NameMap Nat

namespace ScriptedAgent

/-- A scripted agent that has not been invoked. -/
def ofScript (script : Script) : ScriptedAgent := ⟨script.map Behavior.ofScript, .empty⟩

def count (state : ScriptedAgent) (name : String) : Nat := (state.invocations.get? name).getD 0

def counted (state : ScriptedAgent) (name : String) : ScriptedAgent :=
  ⟨state.behaviors, state.invocations.insert name (state.count name + 1)⟩

/-- Invokes a capability by its name. The invocation counts, whatever comes of it; the arguments
have no bearing on the answer. -/
def invoke (state : ScriptedAgent) (name : String) (_ : Kwargs) :
    Except Failure Bool × ScriptedAgent :=
  let n := state.count name
  match state.behaviors.get? name with
  | none => (.error ⟨"no script for `" ++ name ++ "`"⟩, state.counted name)
  | some behavior => (behavior.reply n, state.counted name)

/-- What scripted agents offer. A capability that was looked up holds its name alone. -/
def agent : Agent ScriptedAgent where
  capability? state name :=
    if state.behaviors.contains name then some ⟨fun state kwargs => state.invoke name kwargs⟩
    else none

/-! ## Small facts -/

variable {state : ScriptedAgent} {name : String} {kwargs : Kwargs} {behavior : Behavior}

@[simp] theorem snd_invoke : (state.invoke name kwargs).2 = state.counted name := by
  rw [invoke]
  cases state.behaviors.get? name <;> rfl

theorem invoke_of_get? (h : state.behaviors.get? name = some behavior) :
    state.invoke name kwargs = (behavior.reply (state.count name), state.counted name) := by
  rw [invoke, h]

theorem get?_behaviors_ofScript (script : Script) (name : String) :
    (ofScript script).behaviors.get? name = (script.get? name).map Behavior.ofScript :=
  NameMap.get?_map ..

theorem capability?_of_get? (h : state.behaviors.get? name = some behavior) :
    agent.capability? state name = some ⟨fun state kwargs => state.invoke name kwargs⟩ := by
  simp [agent, NameMap.contains, h]

theorem capability?_eq_none (h : state.behaviors.get? name = none) :
    agent.capability? state name = none := by
  simp [agent, NameMap.contains, h]

end ScriptedAgent

end BehaviorTree
