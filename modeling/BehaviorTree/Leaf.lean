import BehaviorTree.Tick

/-! # Leaves against an agent

A leaf asks the agent for its capability by name and, if the agent has it, invokes it with the
arguments of the leaf. A missing capability aborts the tick. A failing condition aborts it too; a
failing action is absorbed: it is reported, and counts as a failure. -/

namespace BehaviorTree

/-- What comes of a leaf asking an agent. -/
inductive Answer where
  | missing
  | returned (result : Bool)
  | failed (failure : Failure)
  deriving DecidableEq

/-- What comes of an action that an agent is able to perform. -/
inductive ActionOutcome where
  | success
  | failure
  | absorbed (failure : Failure)
  deriving DecidableEq

/-- An absorbed failure counts as a failure. -/
def ActionOutcome.status : ActionOutcome → Status
  | .success => .success
  | .failure => .failure
  | .absorbed _ => .failure

namespace Leaf

variable {σ : Type}

/-- Looks the capability of a leaf up and invokes it. -/
def ask (agent : Agent σ) (leaf : Leaf) (state : σ) : Answer × σ :=
  match agent.capability? state leaf.capability with
  | none => (.missing, state)
  | some capability => match capability.invoke state leaf.kwargs with
    | (.ok result, state) => (.returned result, state)
    | (.error failure, state) => (.failed failure, state)

def verdict (role : Role) (leaf : Leaf) : Answer → Except TickError Status
  | .missing => .error (.missingCapability leaf.capability leaf.path)
  | .returned result => .ok (.ofBool result)
  | .failed failure => match role with
    | .condition => .error (.capabilityFailed leaf.capability leaf.path failure)
    | .action => .ok .failure

/-- The diagnostic that an answer calls for: only a failing action is reported. -/
def diagnostic? (tick : UInt64) (role : Role) (leaf : Leaf) : Answer → Option Diagnostic
  | .failed failure => match role with
    | .condition => none
    | .action => some ⟨tick, leaf.capability, failure.message⟩
  | _ => none

/-- Performs an action outside a tick: nothing is reported. -/
def perform (agent : Agent σ) (leaf : Leaf) (state : σ) : Except TickError ActionOutcome × σ :=
  match leaf.ask agent state with
  | (.missing, state) => (.error (.missingCapability leaf.capability leaf.path), state)
  | (.returned result, state) => (.ok (if result then .success else .failure), state)
  | (.failed failure, state) => (.ok (.absorbed failure), state)

end Leaf

/-- What a tick acts on: the state of the agent, and the diagnostics reported so far. -/
structure World (σ : Type) where
  agent : σ
  reports : Array Diagnostic

/-- A leaf of a tick with this number. -/
def Leaf.run {σ : Type} (agent : Agent σ) (tick : UInt64) : LeafRun (World σ) :=
  fun role leaf world =>
    let (answer, state) := leaf.ask agent world.agent
    let reports := match leaf.diagnostic? tick role answer with
      | none => world.reports
      | some diagnostic => world.reports.push diagnostic
    (leaf.verdict role answer, ⟨state, reports⟩)

end BehaviorTree
