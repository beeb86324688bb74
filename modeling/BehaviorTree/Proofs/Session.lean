import BehaviorTree.Log
import BehaviorTree.Proofs.Cursor

/-! # Sessions

A tree is ticked again and again, and several trees can share one agent and one sink. A session is
such a use: on each occasion one of the trees, named by the occasion, is ticked against the agent,
which may have changed by itself since the tick before. What happens in a session is told by the
tick starts, one for each occasion: which tree is ticked, and what it and the agent are like at that
moment. -/

namespace BehaviorTree

/-- Trees by name, the state of the agent that they share, and the sink that they report to. -/
structure Session (ι σ : Type) where
  trees : ι → Tree
  agent : σ
  sink : Sink

/-- An occasion for a tick: the name of the tree, and what becomes of the agent before. -/
structure Occasion (ι σ : Type) where
  name : ι
  meanwhile : σ → σ

/-- A tick about to be made: the name of the tree, the tree, and the state of the agent. -/
structure TickStart (ι σ : Type) where
  name : ι
  tree : Tree
  agent : σ

namespace Session

variable {ι σ : Type}

/-- The tick that is made on an occasion. -/
def start (session : Session ι σ) (occasion : Occasion ι σ) : TickStart ι σ :=
  ⟨occasion.name, session.trees occasion.name, occasion.meanwhile session.agent⟩

variable [DecidableEq ι]

def tick (agent : Agent σ) (session : Session ι σ) (occasion : Occasion ι σ) : Session ι σ :=
  let start := session.start occasion
  let (ticked, sink, _) := start.tree.tickInto agent start.agent session.sink
  { trees := fun name => if name = occasion.name then ticked.tree else session.trees name
    agent := ticked.agent
    sink := sink }

def run (agent : Agent σ) (session : Session ι σ) : List (Occasion ι σ) → Session ι σ
  | [] => session
  | occasion :: rest => (session.tick agent occasion).run agent rest

def starts (agent : Agent σ) (session : Session ι σ) : List (Occasion ι σ) → List (TickStart ι σ)
  | [] => []
  | occasion :: rest => session.start occasion :: (session.tick agent occasion).starts agent rest

variable {agent : Agent σ} {session : Session ι σ} {occasion : Occasion ι σ}

@[simp] theorem trees_tick_self :
    (session.tick agent occasion).trees occasion.name =
      ((session.trees occasion.name).tick agent (occasion.meanwhile session.agent)).tree :=
  if_pos rfl

@[simp] theorem trees_tick_of_ne {name : ι} (h : name ≠ occasion.name) :
    (session.tick agent occasion).trees name = session.trees name :=
  if_neg h

@[simp] theorem sink_tick : (session.tick agent occasion).sink =
    (session.sink.reportAll ((session.trees occasion.name).tick agent
      (occasion.meanwhile session.agent)).reports.toList).1 :=
  rfl

end Session

end BehaviorTree
