import BehaviorTree.Proofs.Cursor

/-! # The execution law

What an activation of an inner node does is said by the law of its policy: which of its children it
activates, how often and in which order, when it stops, and what comes of it (`Activation.Lawful`).
The laws are stated on the calls that the activation makes, so they speak of children as they are at
that moment, with whatever the activations before have done to their cursors and to the world. Each
holds of one way of visiting by itself, and so of every activation of a tick, at every depth. -/

namespace BehaviorTree

/-! ## The laws -/

section Laws

variable {ω τ : Type} (activate : τ → ω → Step ω τ)

/-- The law of a composite that goes on as long as its children have the status `usual`. It calls
the shortest prefix of them that ends in the first one of which something else comes, an error
included, and all of them if there is none. What comes of the last call comes of the composite, so
this is `usual` exactly when that came of all children. -/
structure GoesOnWith (usual : Status) (items : List τ) (world : ω) (calls : List (Call ω τ))
    (step : Step ω (List τ)) : Prop where
  inOrder : InOrder activate items world calls step.state step.world
  shortest : EndsAtFirst (· ≠ .ok usual) items.length (outcomes activate calls)
  outcome_eq_last : step.outcome = (outcomes activate calls).getLast?.getD (.ok usual)
  outcome_eq_usual_iff : step.outcome = .ok usual ↔
    outcomes activate calls = List.replicate items.length (.ok usual)

/-- The law of a composite that calls all its children, whatever their statuses. Only a child that
has none, because of an error, is the last to be called, and its error comes of the composite.
Otherwise success comes of it exactly when that came of some child. -/
structure CallsAll (items : List τ) (world : ω) (calls : List (Call ω τ))
    (step : Step ω (List τ)) : Prop where
  inOrder : InOrder activate items world calls step.state step.world
  shortest : EndsAtFirst (fun outcome => ∃ e, outcome = .error e) items.length
    (outcomes activate calls)
  outcome_eq_error_iff : ∀ e, step.outcome = .error e ↔
    (outcomes activate calls).getLast? = some (.error e)
  outcome_eq_success_iff : step.outcome = .ok .success ↔
    .ok .success ∈ outcomes activate calls ∧ ∀ e, .error e ∉ outcomes activate calls

/-- The law of a composite whose children take turns: it calls the one at the cursor and nothing
else, and what comes of that comes of the composite. -/
structure TakesTurn (cursor : Nat) (items : List τ) (world : ω) (calls : List (Call ω τ))
    (step : Step ω (List τ)) : Prop where
  call : ∃ item, items[cursor]? = some item ∧ calls = [⟨cursor, item, world⟩] ∧
    step = (activate item world).map (items.set cursor ·)

/-- The law of a loop: it calls its child up to `count` times, until something else than success
comes of it. What comes of the last call comes of the loop, and success if there is none. -/
structure RepeatsWhileSuccess (count : Nat) (item : τ) (world : ω) (calls : List (Call ω τ))
    (step : Step ω τ) : Prop where
  repeats : Repeats activate item world calls step.state step.world
  shortest : EndsAtFirst (· ≠ .ok .success) count (outcomes activate calls)
  outcome_eq_last : step.outcome = (outcomes activate calls).getLast?.getD (.ok .success)
  outcome_eq_success_iff : step.outcome = .ok .success ↔
    outcomes activate calls = List.replicate count (.ok .success)

end Laws

/-- An activation goes by the law of its node. What it leaves is that node over what the law leaves
of its children; a node whose children take turns has passed the turn on. A leaf calls nothing. -/
def Activation.Lawful {ω : Type} (run : LeafRun ω) (a : Activation ω) : Prop :=
  let activate := Node.activate run
  let calls := a.calls run
  match a.node with
  | .composite .sequence children => ∃ step, a.step run = step.map (.composite .sequence) ∧
      GoesOnWith activate .success children a.world calls step
  | .composite .selector children => ∃ step, a.step run = step.map (.composite .selector) ∧
      GoesOnWith activate .failure children a.world calls step
  | .composite .parallel children => ∃ step, a.step run = step.map (.composite .parallel) ∧
      CallsAll activate children a.world calls step
  | .composite (.alternate cursor) children => ∃ step,
      a.step run = step.map (.composite (.alternate ((cursor + 1) % children.length))) ∧
        TakesTurn activate cursor children a.world calls step
  | .loop count child => ∃ step, a.step run = step.map (.loop count) ∧
      RepeatsWhileSuccess activate count.toNat child a.world calls step
  | .leaf _ _ => calls = []

/-! ## Every way of visiting goes by its law -/

namespace Step

variable {ω τ : Type} {activate : τ → ω → Step ω τ} {items : List τ} {world : ω}

/-- A visit that goes on at one status only starts from that status. -/
theorem goesOnWith_visit {stop : Option Status} {usual : Status}
    (hstop : ∀ status, stop ≠ some status ↔ status = usual) :
    GoesOnWith activate usual items world (visitCalls activate stop 0 items world)
      (visit activate stop usual items world) := by
  have hends : ∀ outcome, Stops stop outcome ↔ outcome ≠ .ok usual := by
    intro outcome
    constructor
    · rintro h rfl
      exact (hstop usual).2 rfl (h usual rfl)
    · intro hne status houtcome
      refine Classical.byContradiction fun hstatus => hne ?_
      rw [houtcome, (hstop status).1 hstatus]
  have hshortest : EndsAtFirst (· ≠ .ok usual) items.length
      (outcomes activate (visitCalls activate stop 0 items world)) :=
    endsAtFirst_visitCalls.congr hends
  have hlast : (visit activate stop usual items world).outcome =
      (outcomes activate (visitCalls activate stop 0 items world)).getLast?.getD (.ok usual) :=
    outcome_visit_eq_last 0 fun status hne => (hstop status).1 hne
  refine ⟨inOrder_visit usual, hshortest, hlast, ?_⟩
  rw [hlast]
  exact hshortest.last_eq_iff

theorem callsAll_visit :
    CallsAll activate items world (visitCalls activate none 0 items world)
      (visit activate none .failure items world) := by
  have hends : ∀ outcome, Stops none outcome ↔ ∃ e, outcome = .error e := by
    intro outcome
    cases outcome with
    | error e => simp [Stops]
    | ok status => simp [Stops]
  refine ⟨inOrder_visit .failure, endsAtFirst_visitCalls.congr hends,
    fun e => outcome_visit_none_eq_error_iff 0, ?_⟩
  rw [outcome_visit_none_eq_success_iff 0]
  simp

theorem takesTurn_visitAt {cursor : Nat} (hcursor : cursor < items.length) :
    TakesTurn activate cursor items world (callsBy activate (.alternate cursor) items world)
      (visitAt activate cursor items world) := by
  have hitem : items[cursor]? = some items[cursor] := List.getElem?_eq_getElem hcursor
  refine ⟨items[cursor], hitem, callsBy_alternate activate hitem world, ?_⟩
  rw [visitAt, hitem]

theorem repeatsWhileSuccess_repeated {count : Nat} {item : τ} :
    RepeatsWhileSuccess activate count item world (repeatedCalls activate count item world)
      (repeated activate count item world) := by
  have hlast : (repeated activate count item world).outcome =
      (outcomes activate (repeatedCalls activate count item world)).getLast?.getD (.ok .success) :=
    outcome_repeated_eq_last
  refine ⟨repeats_repeatedCalls, endsAtFirst_repeatedCalls, hlast, ?_⟩
  rw [hlast]
  exact endsAtFirst_repeatedCalls.last_eq_iff

end Step

/-! ## Every activation goes by the law of its node -/

namespace Activation

variable {ω : Type} {run : LeafRun ω}

theorem lawful_composite (position : Position) (policy : Policy) (children : List Node) (world : ω)
    (hfits : policy.Fits children.length) :
    (Activation.mk position (.composite policy children) world).Lawful run := by
  cases policy with
  | selector =>
      refine ⟨_, Node.activate_composite run .selector children world, ?_⟩
      rw [calls_composite, Step.callsBy_selector]
      exact Step.goesOnWith_visit fun status => by cases status <;> simp
  | sequence =>
      refine ⟨_, Node.activate_composite run .sequence children world, ?_⟩
      rw [calls_composite, Step.callsBy_sequence]
      exact Step.goesOnWith_visit fun status => by cases status <;> simp
  | parallel =>
      refine ⟨_, Node.activate_composite run .parallel children world, ?_⟩
      rw [calls_composite, Step.callsBy_parallel]
      exact Step.callsAll_visit
  | alternate cursor =>
      refine ⟨_, Node.activate_composite run (.alternate cursor) children world, ?_⟩
      exact Step.takesTurn_visitAt (hfits cursor rfl)

theorem lawful_loop (position : Position) (count : UInt32) (child : Node) (world : ω) :
    (Activation.mk position (.loop count child) world).Lawful run := by
  refine ⟨_, Node.activate_loop run count child world, ?_⟩
  rw [calls_loop, Step.callsRepeated_eq]
  exact Step.repeatsWhileSuccess_repeated

theorem lawful_of_inRange {a : Activation ω} (h : a.node.InRange) : a.Lawful run := by
  obtain ⟨position, node, world⟩ := a
  cases node with
  | leaf role bound => exact rfl
  | loop count child => exact lawful_loop position count child world
  | composite policy children => exact lawful_composite position policy children world h.fits

end Activation

namespace Tree

variable {σ : Type}

/-- If the cursors of a tree are in range, all activations of a tick go by the laws of their nodes,
whatever the agent. One of them is that of the root against the state of the agent; what it leaves
is what the tick leaves. -/
theorem execution_law (agent : Agent σ) (tree : Tree) (state : σ) (h : tree.root.InRange) :
    (∀ a ∈ tree.activations agent state, a.Lawful (Leaf.run agent tree.ticks)) ∧
      ∃ root ∈ tree.activations agent state, root.node = tree.root ∧ root.world = ⟨state, #[]⟩ ∧
        let left := root.step (Leaf.run agent tree.ticks)
        let ticked := tree.tick agent state
        ticked.outcome = left.outcome ∧ ticked.tree.root = left.state ∧
          ticked.agent = left.world.agent ∧ ticked.reports = left.world.reports := by
  have hrange : ∀ a ∈ tree.activations agent state, a.node.InRange := Activation.inRange_node h
  refine ⟨fun a ha => Activation.lawful_of_inRange (hrange a ha), ?_⟩
  refine ⟨tree.activation state, ?_, rfl, rfl, rfl, rfl, rfl, rfl⟩
  rw [activations, Activation.all_eq]
  exact List.mem_cons_self

/-- A composite whose children take turns, repeated by a loop: the law holds of its activations
though its cursor has changed from one to the next. -/
theorem execution_law_turns_in_loop :
    ∃ (agent : Agent Nat) (tree : Tree), tree.root.InRange ∧
      (tree.tick agent 0).tree.root.cursors ≠ tree.root.cursors ∧
      ∀ a ∈ tree.activations agent 0, a.Lawful (Leaf.run agent tree.ticks) := by
  let agent : Agent Nat := ⟨fun _ _ => some ⟨fun state _ => (.ok true, state + 1)⟩⟩
  let leaf (name : String) : Node := .leaf .action ⟨name, .empty, name⟩
  let turns : Node := .composite (.alternate 1) [leaf "open", leaf "close"]
  have hturns : turns.InRange := by
    refine Node.inRange_composite (fun cursor heq => ?_) fun child hchild => ?_
    · cases heq
      decide
    · rcases List.mem_cons.1 hchild with rfl | hchild
      · exact Node.inRange_leaf _ _
      · rw [List.mem_singleton.1 hchild]
        exact Node.inRange_leaf _ _
  refine ⟨agent, .ofRoot (.loop 3 turns), Node.inRange_loop hturns, ?_, ?_⟩
  · decide
  · exact (execution_law agent (.ofRoot (.loop 3 turns)) 0 (Node.inRange_loop hturns)).1

end Tree

end BehaviorTree
