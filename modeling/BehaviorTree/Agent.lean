import BehaviorTree.Kwargs

/-! # Agents

An agent is whatever state it has, together with the capabilities that it offers in that state. A
tree only ever looks a capability up by name and invokes what it found. -/

namespace BehaviorTree

/-- A failure that a capability reports while it runs. -/
structure Failure where
  message : String
  deriving DecidableEq

/-- A named operation on agents with state `σ`: given the state and the arguments it answers true or
false, or fails, and leaves a new state either way. -/
structure Capability (σ : Type) where
  invoke : σ → Kwargs → Except Failure Bool × σ

/-- What agents with state `σ` offer: the capability, if any, that a name stands for in a state. -/
structure Agent (σ : Type) where
  capability? : σ → String → Option (Capability σ)

abbrev CapabilityTable (σ : Type) := NameMap (Capability σ)

namespace CapabilityTable

variable {σ : Type}

/-- The agent that offers what a table holds, in every state. -/
def agent (table : CapabilityTable σ) : Agent σ := ⟨fun _ name => table.get? name⟩

/-- The names of a table as a set. -/
def display (table : CapabilityTable σ) : String :=
  "\x7b" ++ ", ".intercalate (table.names.map Text.quoted) ++ "\x7d"

end CapabilityTable

end BehaviorTree
