import BehaviorTree.Agent

/-! # Diagnostics

An action that fails while it runs does not stop the tick: the failure is reported as a diagnostic.
Diagnostics carry the number of the tick, the capability and its message, and go to a sink. -/

namespace BehaviorTree

/-- A failure of an action that was absorbed during a tick. -/
structure Diagnostic where
  tick : UInt64
  capability : String
  message : String
  deriving DecidableEq

def Diagnostic.display (d : Diagnostic) : String :=
  "tick " ++ toString d.tick.toNat ++ ": action `" ++ d.capability ++ "` failed: " ++ d.message

end BehaviorTree
