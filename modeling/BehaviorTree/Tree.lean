import BehaviorTree.Leaf

/-! # Trees across ticks

A `Tree` is a compiled tree in use: it counts its ticks and remembers the status of the last one. A
tick that is aborted counts as a tick and leaves no status. -/

namespace BehaviorTree

/-- A compiled tree in use by one agent. -/
structure Tree where
  root : Node
  ticks : UInt64
  last : Option Status

/-- What a tick leaves: its outcome, the tree, the state of the agent and the diagnostics. -/
structure Ticked (σ : Type) where
  outcome : Except TickError Status
  tree : Tree
  agent : σ
  reports : Array Diagnostic

namespace Tree

variable {σ : Type}

/-- A compiled tree before its first tick. -/
def ofRoot (root : Node) : Tree := ⟨root, 0, none⟩

def size (tree : Tree) : Nat := tree.root.size

/-- The number after `n`; the greatest number has none and stays. -/
def nextTick (n : UInt64) : UInt64 := if n = 0xffffffffffffffff then n else n + 1

/-- Ticks a tree once against an agent in this state. -/
def tick (agent : Agent σ) (tree : Tree) (state : σ) : Ticked σ :=
  let step := tree.root.activate (Leaf.run agent tree.ticks) ⟨state, #[]⟩
  { outcome := step.outcome
    tree := ⟨step.state, nextTick tree.ticks, step.outcome.toOption⟩
    agent := step.world.agent
    reports := step.world.reports }

end Tree

end BehaviorTree
