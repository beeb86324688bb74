import BehaviorTree.Proofs.Evaluation

/-! # Aborted ticks

A leaf aborts the tick if its capability is not there, and a condition also if its capability fails;
a failing action does not (`Evaluation.Aborts`). A tick is aborted exactly by the last evaluation
that it makes. That nothing is invoked besides, and nothing later, is seen by an agent that keeps a
record of its invocations: a tick against it is the same tick, and the record is that of the
evaluations in order. -/

namespace BehaviorTree

/-! ## What a leaf asks of the agent -/

/-- What a capability answers that has been invoked. -/
def Answer.ofResult : Except Failure Bool → Answer
  | .ok result => .returned result
  | .error failure => .failed failure

section Ask

variable {σ : Type} {agent : Agent σ} {leaf : Leaf} {state : σ}

theorem Leaf.ask_of_missing (h : agent.capability? state leaf.capability = none) :
    leaf.ask agent state = (.missing, state) := by
  rw [ask, h]

theorem Leaf.ask_of_found {capability : Capability σ}
    (h : agent.capability? state leaf.capability = some capability) :
    leaf.ask agent state =
      (.ofResult (capability.invoke state leaf.kwargs).1,
        (capability.invoke state leaf.kwargs).2) := by
  rw [ask, h]
  dsimp only
  rcases capability.invoke state leaf.kwargs with ⟨result | failure, left⟩ <;> rfl

end Ask

/-- The evaluation aborts the tick with this error: its leaf has no capability, or it is that of a
condition whose capability fails. -/
inductive Evaluation.Aborts {σ : Type} (agent : Agent σ) (evaluation : Evaluation σ) :
    TickError → Prop where
  | missing (lookup : agent.capability? evaluation.state evaluation.leaf.capability = none) :
      evaluation.Aborts agent
        (.missingCapability evaluation.leaf.capability evaluation.leaf.path)
  | failed {capability : Capability σ} {failure : Failure} (role : evaluation.role = .condition)
      (lookup : agent.capability? evaluation.state evaluation.leaf.capability = some capability)
      (invoked : (capability.invoke evaluation.state evaluation.leaf.kwargs).1 = .error failure) :
      evaluation.Aborts agent
        (.capabilityFailed evaluation.leaf.capability evaluation.leaf.path failure)

theorem Evaluation.aborts_iff {σ : Type} {agent : Agent σ} {evaluation : Evaluation σ}
    {e : TickError} : evaluation.Aborts agent e ↔ evaluation.verdict agent = .error e := by
  obtain ⟨role, leaf, state⟩ := evaluation
  rw [verdict, answer]
  constructor
  · rintro (lookup | ⟨rfl, lookup, invoked⟩)
    · rw [Leaf.ask_of_missing lookup]
      rfl
    · rw [Leaf.ask_of_found lookup, invoked]
      rfl
  · intro h
    cases lookup : agent.capability? state leaf.capability with
    | none =>
        rw [Leaf.ask_of_missing lookup] at h
        cases h
        exact .missing lookup
    | some capability =>
        rw [Leaf.ask_of_found lookup] at h
        cases invoked : (capability.invoke state leaf.kwargs).1 with
        | ok result =>
            rw [invoked] at h
            cases h
        | error failure =>
            rw [invoked] at h
            cases role with
            | action => cases h
            | condition =>
                cases h
                exact .failed rfl lookup invoked

/-! ## An agent that keeps a record -/

/-- An invocation of a capability: the state in which it finds the agent, the name that the
capability was found under, and the arguments. -/
structure Invocation (σ : Type) where
  state : σ
  capability : String
  kwargs : Kwargs

/-- The same agent, which keeps a record of the invocations of its capabilities. -/
def Agent.recording {σ : Type} (agent : Agent σ) : Agent (σ × List (Invocation σ)) where
  capability? state name := (agent.capability? state.1 name).map fun capability =>
    ⟨fun state kwargs =>
      let (result, left) := capability.invoke state.1 kwargs
      (result, left, state.2 ++ [⟨state.1, name, kwargs⟩])⟩

/-- The invocation that an evaluation makes: one of the capability of the leaf, if the agent has it,
in the state in which it was looked up. -/
def Evaluation.invocation? {σ : Type} (agent : Agent σ) (evaluation : Evaluation σ) :
    Option (Invocation σ) :=
  (agent.capability? evaluation.state evaluation.leaf.capability).map fun _ =>
    ⟨evaluation.state, evaluation.leaf.capability, evaluation.leaf.kwargs⟩

section Recording

variable {σ τ : Type} {agent : Agent σ}

theorem Leaf.ask_recording (role : Role) (leaf : Leaf) (state : σ) (record : List (Invocation σ)) :
    leaf.ask agent.recording (state, record) =
      ((Evaluation.mk role leaf state).answer agent, (Evaluation.mk role leaf state).left agent,
        record ++ ((Evaluation.mk role leaf state).invocation? agent).toList) := by
  rw [Evaluation.answer, Evaluation.left, Evaluation.invocation?]
  cases lookup : agent.capability? state leaf.capability with
  | none =>
      have hrecording : agent.recording.capability? (state, record) leaf.capability = none :=
        Option.map_eq_none_iff.2 lookup
      rw [ask_of_missing lookup, ask_of_missing hrecording]
      exact congrArg (fun record => (_, _, record)) (List.append_nil record).symm
  | some capability =>
      -- What is found is the same capability, which adds its invocation to the record.
      obtain ⟨recorded, hfound, hinvoke⟩ : ∃ recorded,
          agent.recording.capability? (state, record) leaf.capability = some recorded ∧
            recorded.invoke (state, record) leaf.kwargs =
              ((capability.invoke state leaf.kwargs).1, (capability.invoke state leaf.kwargs).2,
                record ++ [⟨state, leaf.capability, leaf.kwargs⟩]) :=
        ⟨_, Option.map_eq_some_iff.2 ⟨capability, lookup, rfl⟩, rfl⟩
      rw [ask_of_found lookup, ask_of_found hfound, hinvoke]
      rfl

theorem Evaluation.answer_recording (agent : Agent σ) (role : Role) (leaf : Leaf) (state : σ)
    (record : List (Invocation σ)) :
    (Evaluation.mk role leaf (state, record)).answer agent.recording =
      (Evaluation.mk role leaf state).answer agent :=
  congrArg Prod.fst (Leaf.ask_recording role leaf state record)

theorem Evaluation.left_recording (agent : Agent σ) (role : Role) (leaf : Leaf) (state : σ)
    (record : List (Invocation σ)) :
    (Evaluation.mk role leaf (state, record)).left agent.recording =
      ((Evaluation.mk role leaf state).left agent,
        record ++ ((Evaluation.mk role leaf state).invocation? agent).toList) :=
  congrArg Prod.snd (Leaf.ask_recording role leaf state record)

/-- A record changes nothing in a dialogue, and it is that of the evaluations. -/
theorem Dialogue.follow_recording (dialogue : Dialogue τ) (tick : UInt64) (state : σ)
    (record : List (Invocation σ)) (reports : Array Diagnostic) :
    dialogue.follow (Leaf.run agent.recording tick) ⟨(state, record), reports⟩ =
      let step := dialogue.follow (Leaf.run agent tick) ⟨state, reports⟩
      let invocations := (dialogue.evaluations agent state).filterMap (·.invocation? agent)
      ⟨step.outcome, step.state,
        ⟨(step.world.agent, record ++ invocations), step.world.reports⟩⟩ := by
  induction dialogue generalizing state record reports with
  | ended status left => simp [follow, evaluations]
  | ask role leaf aborted next ih =>
      have hanswer := Evaluation.answer_recording agent role leaf state record
      have hsame := Evaluation.verdict_of_answer_eq hanswer
      have hreport := Evaluation.report_of_answer_eq hanswer tick reports
      have hleft := Evaluation.left_recording agent role leaf state record
      cases hverdict : (Evaluation.mk role leaf state).verdict agent with
      | error e =>
          rw [hverdict] at hsame
          rw [follow_run_ask_of_error hsame, follow_run_ask_of_error hverdict,
            evaluations_ask_of_error hverdict, hleft, hreport, filterMap_cons_eq_append,
            List.filterMap_nil, List.append_nil]
      | ok status =>
          rw [hverdict] at hsame
          rw [follow_run_ask_of_ok hsame, follow_run_ask_of_ok hverdict,
            evaluations_ask_of_ok hverdict, hleft, hreport, ih, filterMap_cons_eq_append]
          dsimp only
          rw [List.append_assoc]

end Recording

/-! ## The evaluation that aborts a tick -/

namespace Tree

variable {σ : Type}

theorem tick_recording (agent : Agent σ) (tree : Tree) (state : σ) :
    tree.tick agent.recording (state, []) =
      let ticked := tree.tick agent state
      let invocations := (tree.evaluations agent state).filterMap (·.invocation? agent)
      ⟨ticked.outcome, ticked.tree, (ticked.agent, invocations), ticked.reports⟩ := by
  simp only [tick, Node.activate_eq_follow, Dialogue.follow_recording, evaluations_eq_dialogue,
    List.nil_append]

/-- The evaluations of a tick are of leaves of the tree. The first finds the agent as the tick does,
each other one as that before left it, and the last one leaves it as the tick does. An agent that
keeps a record shows that exactly the capabilities that they find are invoked, once each and in
order. The tick has an error if and only if its last evaluation aborts it with that error, and none
before does. An action whose capability is found never aborts a tick. -/
theorem tick_aborted_iff_last_evaluation (agent : Agent σ) (tree : Tree) (state : σ) :
    let evaluations := tree.evaluations agent state
    let ticked := tree.tick agent state
    (∀ evaluation ∈ evaluations, ∃ position,
        tree.root.at? position = some (.leaf evaluation.role evaluation.leaf)) ∧
      HandedOn Evaluation.state (Evaluation.left agent) state evaluations ticked.agent ∧
      tree.tick agent.recording (state, []) =
        ⟨ticked.outcome, ticked.tree,
          (ticked.agent, evaluations.filterMap (·.invocation? agent)), ticked.reports⟩ ∧
      (∀ e, ticked.outcome = .error e ↔ ∃ last ∈ evaluations.getLast?, last.Aborts agent e) ∧
      (∀ evaluation ∈ evaluations.dropLast, ∀ e, ¬ evaluation.Aborts agent e) ∧
      ∀ evaluation ∈ evaluations, evaluation.role = .action →
        (∃ capability, agent.capability? evaluation.state evaluation.leaf.capability =
          some capability) → ∀ e, ¬ evaluation.Aborts agent e := by
  refine ⟨fun _ h => exists_leaf_of_mem_evaluations agent tree state h, ?_,
    tick_recording agent tree state, ?_, ?_, ?_⟩
  · rw [evaluations_eq_dialogue, tick, Node.activate_eq_follow]
    exact Dialogue.handedOn_evaluations tree.root.dialogue state #[]
  · intro e
    rw [evaluations_eq_dialogue, outcome_tick, Dialogue.outcome_follow_eq_error_iff]
    simp only [Evaluation.aborts_iff]
  · intro evaluation hevaluation e haborts
    rw [evaluations_eq_dialogue] at hevaluation
    obtain ⟨status, hstatus⟩ :=
      Dialogue.ok_of_mem_dropLast_evaluations tree.root.dialogue state evaluation hevaluation
    rw [Evaluation.aborts_iff, hstatus] at haborts
    cases haborts
  · rintro evaluation - haction ⟨capability, hfound⟩ e haborts
    cases haborts with
    | missing lookup =>
        rw [hfound] at lookup
        cases lookup
    | failed role lookup invoked =>
        rw [haction] at role
        cases role

/-- An action that fails is followed by a condition that fails: only the condition aborts the tick,
and the leaf after it is not asked for. -/
theorem tick_aborted_iff_last_evaluation_scan :
    ∃ (agent : Agent Nat) (tree : Tree) (last : Evaluation Nat),
      tree.size = 4 ∧ last ∈ tree.evaluations agent 0 ∧
      last.Aborts agent (.capabilityFailed "scan" "Selector/1:Scan" ⟨"broken"⟩) ∧
      (tree.tick agent 0).outcome =
        .error (.capabilityFailed "scan" "Selector/1:Scan" ⟨"broken"⟩) ∧
      (∃ position, tree.root.at? position = some (.leaf .condition last.leaf)) ∧
      (tree.tick agent.recording (0, [])).agent.2.map (·.capability) = ["shoot", "scan"] := by
  let broken : Capability Nat := ⟨fun state _ => (.error ⟨"broken"⟩, state + 1)⟩
  let agent : Agent Nat := ⟨fun _ _ => some broken⟩
  let shoot : Leaf := ⟨"shoot", .empty, "Selector/0:Shoot"⟩
  let scan : Leaf := ⟨"scan", .empty, "Selector/1:Scan"⟩
  let walk : Leaf := ⟨"walk", .empty, "Selector/2:Walk"⟩
  let tree : Tree := .ofRoot (.composite .selector
    [.leaf .action shoot, .leaf .condition scan, .leaf .action walk])
  obtain ⟨hleaves, -, hrecord, houtcome, -⟩ := tick_aborted_iff_last_evaluation agent tree 0
  have hmem : Evaluation.mk .condition scan 1 ∈ tree.evaluations agent 0 :=
    List.mem_cons_of_mem _ List.mem_cons_self
  have habort : (Evaluation.mk .condition scan 1).Aborts agent
      (.capabilityFailed "scan" "Selector/1:Scan" ⟨"broken"⟩) := .failed rfl rfl rfl
  refine ⟨agent, tree, _, rfl, hmem, habort, ?_, hleaves _ hmem, ?_⟩
  · exact (houtcome _).2 ⟨_, rfl, habort⟩
  · rw [hrecord]
    rfl

end Tree

end BehaviorTree
