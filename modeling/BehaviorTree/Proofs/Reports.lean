import BehaviorTree.Proofs.Abort
import BehaviorTree.Proofs.Session

/-! # Reports of absorbed failures

A failure of the capability of an action is absorbed: the action counts as failed and the failure is
reported. Nothing else is ever reported. So what a sink gains from a tick are the failures that its
evaluations absorb, each once and in order, whatever becomes of the tick after them. -/

namespace BehaviorTree

namespace Evaluation

variable {σ : Type} {agent : Agent σ} {evaluation : Evaluation σ}

/-- The failure that an evaluation absorbs: that of the capability of an action. -/
def absorbed? (agent : Agent σ) (evaluation : Evaluation σ) : Option Failure :=
  match evaluation.role, agent.capability? evaluation.state evaluation.leaf.capability with
  | .action, some capability =>
      match (capability.invoke evaluation.state evaluation.leaf.kwargs).1 with
      | .error failure => some failure
      | .ok _ => none
  | _, _ => none

theorem absorbed?_eq_some_iff {failure : Failure} : evaluation.absorbed? agent = some failure ↔
    evaluation.role = .action ∧ evaluation.answer agent = .failed failure := by
  obtain ⟨role, leaf, state⟩ := evaluation
  rw [absorbed?, answer]
  cases role with
  | condition => simp
  | action =>
      cases lookup : agent.capability? state leaf.capability with
      | none => simp [Leaf.ask_of_missing lookup]
      | some capability =>
          rw [Leaf.ask_of_found lookup]
          cases invoked : (capability.invoke state leaf.kwargs).1 with
          | ok result => simp [Answer.ofResult, invoked]
          | error failure' => simp [Answer.ofResult, invoked]

theorem diagnostic?_eq (tick : UInt64) : evaluation.diagnostic? agent tick =
    (evaluation.absorbed? agent).map fun failure =>
      ⟨tick, evaluation.leaf.capability, failure.message⟩ := by
  rw [diagnostic?]
  cases habsorbed : evaluation.absorbed? agent with
  | some failure =>
      obtain ⟨hrole, hanswer⟩ := absorbed?_eq_some_iff.1 habsorbed
      rw [hanswer, hrole]
      rfl
  | none =>
      cases hanswer : evaluation.answer agent with
      | missing => rfl
      | returned result => rfl
      | failed failure =>
          cases hrole : evaluation.role with
          | condition => rfl
          | action =>
              rw [absorbed?_eq_some_iff.2 ⟨hrole, hanswer⟩] at habsorbed
              cases habsorbed

/-- An absorbed failure counts as a failure. Outside a tick the action is performed with the same
effect, and tells the failure. -/
theorem of_absorbed? {failure : Failure} (h : evaluation.absorbed? agent = some failure) :
    evaluation.verdict agent = .ok .failure ∧
      evaluation.leaf.perform agent evaluation.state =
        (.ok (.absorbed failure), evaluation.left agent) := by
  obtain ⟨hrole, hanswer⟩ := absorbed?_eq_some_iff.1 h
  constructor
  · rw [verdict, hanswer, hrole]
    rfl
  · rw [answer] at hanswer
    rw [Leaf.perform, left]
    generalize evaluation.leaf.ask agent evaluation.state = asked at hanswer ⊢
    obtain ⟨answer, left⟩ := asked
    obtain rfl : answer = .failed failure := hanswer
    rfl

end Evaluation

/-! ## What is reported -/

theorem Sink.reportAll_keeping (kept diagnostics : List Diagnostic) :
    ((Sink.keeping kept).reportAll diagnostics).1 = .keeping (kept ++ diagnostics) := by
  induction diagnostics generalizing kept with
  | nil => rw [reportAll, List.append_nil]
  | cons first rest ih =>
      rw [reportAll]
      refine (ih (kept ++ [first])).trans ?_
      rw [List.append_assoc]
      rfl

theorem Sink.reportAll_append (sink : Sink) (first second : List Diagnostic) :
    sink.reportAll (first ++ second) =
      (((sink.reportAll first).1.reportAll second).1,
        (sink.reportAll first).2 ++ ((sink.reportAll first).1.reportAll second).2) := by
  induction first generalizing sink with
  | nil => rfl
  | cons diagnostic rest ih => simp only [List.cons_append, reportAll, ih, List.append_assoc]

/-- The diagnostics of the failures that a tick absorbs, in order. -/
def TickStart.absorbed {ι σ : Type} (agent : Agent σ) (start : TickStart ι σ) : List Diagnostic :=
  (start.tree.evaluations agent start.agent).filterMap fun evaluation =>
    (evaluation.absorbed? agent).map fun failure =>
      ⟨start.tree.ticks, evaluation.leaf.capability, failure.message⟩

theorem TickStart.reports_tick {ι σ : Type} (agent : Agent σ) (start : TickStart ι σ) :
    (start.tree.tick agent start.agent).reports.toList = start.absorbed agent := by
  rw [Tree.reports_tick, absorbed]
  simp only [Evaluation.diagnostic?_eq]

namespace Session

variable {ι σ : Type} [DecidableEq ι]

theorem sink_run_of_keeping {agent : Agent σ} {session : Session ι σ} {kept : List Diagnostic}
    (hsink : session.sink = .keeping kept) (occasions : List (Occasion ι σ)) :
    (session.run agent occasions).sink =
      .keeping (kept ++ (session.starts agent occasions).flatMap (TickStart.absorbed agent)) := by
  induction occasions generalizing session kept with
  | nil => rw [run, starts, List.flatMap_nil, List.append_nil, hsink]
  | cons occasion rest ih =>
      have hfirst : (session.tick agent occasion).sink =
          .keeping (kept ++ (session.start occasion).absorbed agent) := by
        rw [sink_tick, hsink, Sink.reportAll_keeping, ← TickStart.reports_tick]
        rfl
      rw [run, starts, List.flatMap_cons, ← List.append_assoc]
      exact ih hfirst

/-- What a sink that keeps diagnostics gains in a session are the failures that the ticks absorb,
tick by tick and in the order of the evaluations: for each the number of the tick, the capability
and the message. The evaluations are the activations of leaves; one that absorbs a failure leaves
the status failure to its parent, and performing the action in the same state by itself leaves the
same state and tells the failure. -/
theorem sink_gains_absorbed_failures (agent : Agent σ) (trees : ι → Tree) (state : σ)
    (kept : List Diagnostic) (occasions : List (Occasion ι σ)) :
    let session : Session ι σ := ⟨trees, state, .keeping kept⟩
    let starts := session.starts agent occasions
    (session.run agent occasions).sink =
        .keeping (kept ++ starts.flatMap (TickStart.absorbed agent)) ∧
      ∀ start ∈ starts, let activations := start.tree.activations agent start.agent
        start.tree.evaluations agent start.agent =
            activations.filterMap Activation.evaluation? ∧
          ∀ a ∈ activations, ∀ evaluation ∈ a.evaluation?, ∀ failure ∈ evaluation.absorbed? agent,
            let step := a.step (Leaf.run agent start.tree.ticks)
            step.outcome = .ok .failure ∧
              evaluation.leaf.perform agent evaluation.state =
                (.ok (.absorbed failure), step.world.agent) := by
  refine ⟨sink_run_of_keeping rfl occasions, fun start _ =>
    ⟨Tree.evaluations_eq_filterMap agent start.tree start.agent, ?_⟩⟩
  rintro a - evaluation hevaluation failure hfailure
  obtain ⟨hverdict, hperform⟩ := Evaluation.of_absorbed? hfailure
  obtain ⟨position, node, world⟩ := a
  obtain ⟨rfl, hstate⟩ := Activation.evaluation?_eq_some_iff.1 hevaluation
  obtain ⟨role, leaf, state⟩ := evaluation
  obtain rfl : world.agent = state := hstate
  exact ⟨hverdict, hperform⟩

/-- A failure that is absorbed before the tick is aborted by a missing capability. -/
theorem sink_gains_absorbed_failures_before_abort :
    ∃ (agent : Agent Nat) (tree : Tree) (step : Step (World Nat) Node),
      (∃ e, (tree.tick agent 0).outcome = .error e) ∧
      (Session.run agent ⟨fun _ : Unit => tree, 0, .keeping []⟩ [⟨(), id⟩]).sink =
        .keeping [⟨0, "shoot", "jammed"⟩] ∧
      (∃ a ∈ tree.activations agent 0, step = a.step (Leaf.run agent tree.ticks)) ∧
      step.outcome = .ok .failure ∧ step.world.agent = 1 := by
  let jammed : Capability Nat := ⟨fun state _ => (.error ⟨"jammed"⟩, state + 1)⟩
  let agent : Agent Nat := ⟨fun _ name => if name = "shoot" then some jammed else none⟩
  let shoot : Leaf := ⟨"shoot", .empty, "Parallel/0:Shoot"⟩
  let aim : Leaf := ⟨"aim", .empty, "Parallel/1:Aim"⟩
  let tree : Tree := .ofRoot (.composite .parallel [.leaf .action shoot, .leaf .condition aim])
  let start : TickStart Unit Nat := ⟨(), tree, 0⟩
  obtain ⟨hsink, hstarts⟩ :=
    sink_gains_absorbed_failures agent (fun _ : Unit => tree) 0 [] [⟨(), id⟩]
  obtain ⟨hevaluations, hleaves⟩ := hstarts start (List.mem_singleton_self start)
  have hevaluation : Evaluation.mk .action shoot 0 ∈ tree.evaluations agent 0 :=
    List.mem_cons_self
  rw [hevaluations, List.mem_filterMap] at hevaluation
  obtain ⟨a, ha, hevaluation⟩ := hevaluation
  obtain ⟨hfailure, hperform⟩ := hleaves a ha _ hevaluation ⟨"jammed"⟩ rfl
  refine ⟨agent, tree, _, ⟨_, rfl⟩, hsink.trans rfl, ⟨a, ha, rfl⟩, hfailure, ?_⟩
  exact (congrArg Prod.snd hperform).symm

end Session

end BehaviorTree
