import Mathlib.Data.List.Forall2
import BehaviorTree.Proofs.Handle

/-! # Trees that do the same

Two trees of different forms can do the same. What they have to do with each other is told by a
relation: if activations of related trees come to the same and leave related trees again
(`Node.Simulates`), then so do all ticks of any run, whatever agents and sinks it is with
(`Handle.agree_made`, `Handle.agree_run`). -/

namespace BehaviorTree

/-- Two activations come to the same: to the same outcome and world, and what they leave is
related. -/
structure Step.Agree {ω τ υ : Type} (related : τ → υ → Prop) (a : Step ω τ) (b : Step ω υ) :
    Prop where
  outcome : a.outcome = b.outcome
  world : a.world = b.world
  state : related a.state b.state

/-- Activations of related trees come to the same, whatever happens at the leaves. -/
def Node.Simulates (related : Node → Node → Prop) : Prop :=
  ∀ (ω : Type) (run : LeafRun ω) (world : ω) (a b : Node), related a b →
    Step.Agree related (a.activate run world) (b.activate run world)

/-- Two trees in use are related, and count and remember the same. -/
structure Tree.Agree (related : Node → Node → Prop) (a b : Tree) : Prop where
  root : related a.root b.root
  ticks : a.ticks = b.ticks
  last : a.last = b.last

/-- Two ticks come to the same but for the trees, which agree. -/
structure Ticked.Agree {σ : Type} (related : Node → Node → Prop) (a b : Ticked σ) : Prop where
  outcome : a.outcome = b.outcome
  tree : a.tree.Agree related b.tree
  agent : a.agent = b.agent
  reports : a.reports = b.reports

/-- Ticks of trees that agree come to the same. -/
theorem Tree.agree_tick {related : Node → Node → Prop} (hsimulates : Node.Simulates related)
    {a b : Tree} (h : a.Agree related b) {σ : Type} (agent : Agent σ) (state : σ) :
    (a.tick agent state).Agree related (b.tick agent state) := by
  obtain ⟨houtcome, hworld, hroot⟩ := hsimulates _ (Leaf.run agent a.ticks) ⟨state, #[]⟩ _ _ h.root
  rw [h.ticks] at houtcome hworld hroot
  simp only [tick, h.ticks]
  exact ⟨houtcome, ⟨hroot, rfl, congrArg Except.toOption houtcome⟩,
    congrArg World.agent hworld, congrArg World.reports hworld⟩

namespace Handle

variable {α : Type} {σ : α → Type} {κ : Type}

/-- Two handles have trees that agree, the same agents and the same sinks. -/
structure Agree (related : Node → Node → Prop) (a b : Handle σ κ) : Prop where
  tree : a.tree.Agree related b.tree
  agents : a.agents = b.agents
  sinks : a.sinks = b.sinks

/-- Two ticks of runs are with the same agent and come to the same. -/
inductive AgreeMade (related : Node → Node → Prop) :
    (Σ name, Ticked (σ name)) → (Σ name, Ticked (σ name)) → Prop where
  | intro {name : α} {a b : Ticked (σ name)} (ticked : a.Agree related b) :
      AgreeMade related ⟨name, a⟩ ⟨name, b⟩

variable {related : Node → Node → Prop} {agent : ∀ name, Agent (σ name)} {a b : Handle σ κ}

theorem agree_ticked (agent : ∀ name, Agent (σ name)) (hsimulates : Node.Simulates related)
    (h : a.Agree related b) (request : TickRequest σ) :
    (a.ticked agent request).Agree related (b.ticked agent request) := by
  rw [ticked, ticked, h.agents]
  exact Tree.agree_tick hsimulates h.tree _ _

variable [DecidableEq α] [DecidableEq κ]

theorem agree_tick (hsimulates : Node.Simulates related) (h : a.Agree related b)
    (call : TickCall σ κ) : (a.tick agent call).Agree related (b.tick agent call) := by
  have hticked := agree_ticked agent hsimulates h call.toTickRequest
  refine ⟨hticked.tree, ?_, ?_⟩
  · rw [agents_tick, agents_tick, h.agents, hticked.agent]
  · rw [sinks_tick, sinks_tick, h.sinks, hticked.reports]

/-- After any ticks, related trees are related again, and have done the same to agents and sinks. -/
theorem agree_run (hsimulates : Node.Simulates related) (h : a.Agree related b)
    (calls : List (TickCall σ κ)) : (a.run agent calls).Agree related (b.run agent calls) := by
  induction calls generalizing a b with
  | nil => exact h
  | cons call rest ih => exact ih (agree_tick hsimulates h call)

/-- Every tick of a run comes to the same for related trees. -/
theorem agree_made (hsimulates : Node.Simulates related) (h : a.Agree related b)
    (calls : List (TickCall σ κ)) :
    List.Forall₂ (AgreeMade related) (a.made agent calls) (b.made agent calls) := by
  induction calls generalizing a b with
  | nil => exact .nil
  | cons call rest ih =>
      have hticked := agree_ticked agent hsimulates h call.toTickRequest
      exact .cons (.intro hticked) (ih (agree_tick hsimulates h call))

end Handle

end BehaviorTree
