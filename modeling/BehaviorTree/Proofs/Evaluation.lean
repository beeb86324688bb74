import BehaviorTree.Proofs.Dialogue
import BehaviorTree.Proofs.Succession
import BehaviorTree.Proofs.Trace

/-! # Evaluations of leaves

A tick deals with the agent only by evaluating leaves: a capability is looked up and, if the agent
has it, invoked. Let the leaves of a tick write down that they are run; then the notes are its
evaluations (`Tree.evaluations`). Each finds the agent as the one before left it, and together they
say what comes of the tick: its outcome is that of the last one if that is an error, its diagnostics
are those of its evaluations, and the agent is asked for nothing else. -/

namespace BehaviorTree

/-- An evaluation of a leaf: the leaf, and the state in which it finds the agent. -/
structure Evaluation (σ : Type) where
  role : Role
  leaf : Leaf
  state : σ

namespace Evaluation

variable {σ : Type} (agent : Agent σ) (evaluation : Evaluation σ)

def answer : Answer := (evaluation.leaf.ask agent evaluation.state).1

/-- The state in which an evaluation leaves the agent. -/
def left : σ := (evaluation.leaf.ask agent evaluation.state).2

def verdict : Except TickError Status :=
  evaluation.leaf.verdict evaluation.role (evaluation.answer agent)

/-- What the leaf reports in a tick with this number. -/
def diagnostic? (tick : UInt64) : Option Diagnostic :=
  evaluation.leaf.diagnostic? tick evaluation.role (evaluation.answer agent)

/-- The reports with that of the leaf. -/
def report (tick : UInt64) (reports : Array Diagnostic) : Array Diagnostic :=
  match evaluation.diagnostic? agent tick with
  | none => reports
  | some diagnostic => reports.push diagnostic

/-- The evaluation that a note of a tick speaks of. -/
def ofNote : Role × Leaf × World σ → Evaluation σ
  | (role, leaf, world) => ⟨role, leaf, world.agent⟩

theorem toList_report (tick : UInt64) (reports : Array Diagnostic) :
    (evaluation.report agent tick reports).toList =
      reports.toList ++ (evaluation.diagnostic? agent tick).toList := by
  rw [report]
  cases evaluation.diagnostic? agent tick with
  | none => exact (List.append_nil _).symm
  | some diagnostic => exact Array.toList_push

section Answer

variable {σ' : Type} {agent : Agent σ} {agent' : Agent σ'} {role : Role} {leaf : Leaf} {state : σ}
  {state' : σ'}

theorem verdict_of_answer_eq
    (h : (mk role leaf state).answer agent = (mk role leaf state').answer agent') :
    (mk role leaf state).verdict agent = (mk role leaf state').verdict agent' := by
  rw [verdict, verdict, h]

theorem report_of_answer_eq
    (h : (mk role leaf state).answer agent = (mk role leaf state').answer agent') (tick : UInt64)
    (reports : Array Diagnostic) :
    (mk role leaf state).report agent tick reports =
      (mk role leaf state').report agent' tick reports := by
  rw [report, report, diagnostic?, diagnostic?, h]

end Answer

end Evaluation

/-- The evaluations that a tick makes, in order: what its leaves note when they are run. -/
def Tree.evaluations {σ : Type} (agent : Agent σ) (tree : Tree) (state : σ) :
    List (Evaluation σ) :=
  let noted := tree.root.activate (Leaf.run agent tree.ticks).noting (⟨state, #[]⟩, [])
  noted.world.2.map Evaluation.ofNote

theorem filterMap_cons_eq_append {α β : Type} (f : α → Option β) (first : α) (rest : List α) :
    (first :: rest).filterMap f = (f first).toList ++ rest.filterMap f := by
  rw [List.filterMap_cons]
  cases f first <;> rfl

/-! ## The evaluations of a dialogue -/

namespace Dialogue

variable {σ τ : Type} {agent : Agent σ} {tick : UInt64}

/-- The evaluations that an agent in this state meets when a dialogue is followed. -/
def evaluations (agent : Agent σ) : Dialogue τ → σ → List (Evaluation σ)
  | .ended _ _, _ => []
  | .ask role leaf _ next, state =>
      let evaluation : Evaluation σ := ⟨role, leaf, state⟩
      evaluation :: match evaluation.verdict agent with
        | .error _ => []
        | .ok status => (next status).evaluations agent (evaluation.left agent)

section Ask

variable {role : Role} {leaf : Leaf} {aborted : τ} {next : Status → Dialogue τ} {state : σ}
  {reports : Array Diagnostic}

theorem evaluations_ask_of_error {e : TickError}
    (h : (Evaluation.mk role leaf state).verdict agent = .error e) :
    (ask role leaf aborted next).evaluations agent state = [⟨role, leaf, state⟩] := by
  rw [evaluations]
  simp only [h]

theorem evaluations_ask_of_ok {status : Status}
    (h : (Evaluation.mk role leaf state).verdict agent = .ok status) :
    (ask role leaf aborted next).evaluations agent state =
      ⟨role, leaf, state⟩ ::
        (next status).evaluations agent ((Evaluation.mk role leaf state).left agent) := by
  rw [evaluations]
  simp only [h]

theorem follow_run_ask_of_error {e : TickError}
    (h : (Evaluation.mk role leaf state).verdict agent = .error e) :
    (ask role leaf aborted next).follow (Leaf.run agent tick) ⟨state, reports⟩ =
      ⟨.error e, aborted, (Evaluation.mk role leaf state).left agent,
        (Evaluation.mk role leaf state).report agent tick reports⟩ :=
  follow_ask_of_error h

theorem follow_run_ask_of_ok {status : Status}
    (h : (Evaluation.mk role leaf state).verdict agent = .ok status) :
    (ask role leaf aborted next).follow (Leaf.run agent tick) ⟨state, reports⟩ =
      (next status).follow (Leaf.run agent tick)
        ⟨(Evaluation.mk role leaf state).left agent,
          (Evaluation.mk role leaf state).report agent tick reports⟩ :=
  follow_ask_of_ok h

end Ask

/-- Leaves that take notes note the evaluations. -/
theorem notes_follow (dialogue : Dialogue τ) (world : World σ)
    (noted : List (Role × Leaf × World σ)) :
    (dialogue.follow (Leaf.run agent tick).noting (world, noted)).world.2.map Evaluation.ofNote =
      noted.map Evaluation.ofNote ++ dialogue.evaluations agent world.agent := by
  induction dialogue generalizing world noted with
  | ended status state => exact (List.append_nil _).symm
  | ask role leaf aborted next ih =>
      cases hverdict : (Evaluation.mk role leaf world.agent).verdict agent with
      | error e =>
          rw [follow_ask_of_error hverdict, evaluations_ask_of_error hverdict]
          exact List.map_append
      | ok status =>
          rw [follow_ask_of_ok hverdict, evaluations_ask_of_ok hverdict, LeafRun.noting, ih,
            List.map_append, List.append_assoc]
          rfl

variable (dialogue : Dialogue τ) (state : σ) (reports : Array Diagnostic)

/-- Each evaluation finds the agent as the one before left it. -/
theorem handedOn_evaluations :
    HandedOn Evaluation.state (Evaluation.left agent) state (dialogue.evaluations agent state)
      (dialogue.follow (Leaf.run agent tick) ⟨state, reports⟩).world.agent := by
  induction dialogue generalizing state reports with
  | ended status left => rfl
  | ask role leaf aborted next ih =>
      cases hverdict : (Evaluation.mk role leaf state).verdict agent with
      | error e =>
          rw [follow_run_ask_of_error hverdict, evaluations_ask_of_error hverdict]
          exact ⟨rfl, rfl⟩
      | ok status =>
          rw [follow_run_ask_of_ok hverdict, evaluations_ask_of_ok hverdict]
          exact ⟨rfl, ih status _ _⟩

/-- Only the last evaluation can come to an error. -/
theorem ok_of_mem_dropLast_evaluations :
    ∀ evaluation ∈ (dialogue.evaluations agent state).dropLast,
      ∃ status, evaluation.verdict agent = .ok status := by
  induction dialogue generalizing state with
  | ended status left => exact fun _ h => absurd h List.not_mem_nil
  | ask role leaf aborted next ih =>
      intro evaluation hevaluation
      cases hverdict : (Evaluation.mk role leaf state).verdict agent with
      | error e =>
          rw [evaluations_ask_of_error hverdict] at hevaluation
          exact absurd hevaluation List.not_mem_nil
      | ok status =>
          -- If there are later ones, all but the last of them and this one are meant.
          rw [evaluations_ask_of_ok hverdict] at hevaluation
          have hlater := ih status ((Evaluation.mk role leaf state).left agent)
          revert hevaluation hlater
          cases (next status).evaluations agent _ with
          | nil => exact fun hevaluation _ => absurd hevaluation List.not_mem_nil
          | cons second others =>
              intro hevaluation hlater
              rw [List.dropLast_cons_cons, List.mem_cons] at hevaluation
              rcases hevaluation with rfl | hevaluation
              · exact ⟨status, hverdict⟩
              · exact hlater evaluation hevaluation

/-- The error to which the last evaluation comes is the outcome. -/
theorem outcome_follow_eq_error_iff (e : TickError) :
    (dialogue.follow (Leaf.run agent tick) ⟨state, reports⟩).outcome = .error e ↔
      ∃ last ∈ (dialogue.evaluations agent state).getLast?, last.verdict agent = .error e := by
  induction dialogue generalizing state reports with
  | ended status left => simp [follow, evaluations]
  | ask role leaf aborted next ih =>
      cases hverdict : (Evaluation.mk role leaf state).verdict agent with
      | error e' =>
          rw [follow_run_ask_of_error hverdict, evaluations_ask_of_error hverdict]
          simp [hverdict]
      | ok status =>
          rw [follow_run_ask_of_ok hverdict, evaluations_ask_of_ok hverdict, List.getLast?_cons]
          rw [ih]
          -- Without later evaluations this one is the last, and it comes to a status.
          cases ((next status).evaluations agent _).getLast? with
          | none => simp [hverdict]
          | some last => simp

/-- The diagnostics of the evaluations are reported in order. -/
theorem reports_follow :
    (dialogue.follow (Leaf.run agent tick) ⟨state, reports⟩).world.reports.toList =
      reports.toList ++
        (dialogue.evaluations agent state).filterMap (·.diagnostic? agent tick) := by
  induction dialogue generalizing state reports with
  | ended status left => exact (List.append_nil _).symm
  | ask role leaf aborted next ih =>
      cases hverdict : (Evaluation.mk role leaf state).verdict agent with
      | error e =>
          rw [follow_run_ask_of_error hverdict, evaluations_ask_of_error hverdict,
            filterMap_cons_eq_append, Evaluation.toList_report]
          exact congrArg _ (List.append_nil _).symm
      | ok status =>
          rw [follow_run_ask_of_ok hverdict, evaluations_ask_of_ok hverdict, ih,
            filterMap_cons_eq_append, Evaluation.toList_report, List.append_assoc]

end Dialogue

/-! ## The evaluations of a tick -/

/-- The evaluation that an activation of a leaf is. -/
def Activation.evaluation? {σ : Type} (a : Activation (World σ)) : Option (Evaluation σ) :=
  a.leaf?.map Evaluation.ofNote

theorem Activation.evaluation?_eq_some_iff {σ : Type} {a : Activation (World σ)}
    {evaluation : Evaluation σ} :
    a.evaluation? = some evaluation ↔
      a.node = .leaf evaluation.role evaluation.leaf ∧ a.world.agent = evaluation.state := by
  obtain ⟨position, node, world⟩ := a
  obtain ⟨role, leaf, state⟩ := evaluation
  cases node with
  | composite policy children => simp [evaluation?, leaf?]
  | loop count child => simp [evaluation?, leaf?]
  | leaf role' leaf' => simp [evaluation?, leaf?, Evaluation.ofNote, and_assoc]

namespace Tree

variable {σ : Type} (agent : Agent σ) (tree : Tree) (state : σ)

theorem evaluations_eq_dialogue :
    tree.evaluations agent state = tree.root.dialogue.evaluations agent state := by
  rw [evaluations, Node.activate_eq_follow]
  exact Dialogue.notes_follow tree.root.dialogue ⟨state, #[]⟩ []

/-- The evaluations are the activations of leaves. -/
theorem evaluations_eq_filterMap :
    tree.evaluations agent state =
      (tree.activations agent state).filterMap Activation.evaluation? := by
  rw [evaluations, tick_noting]
  exact List.map_filterMap

theorem outcome_tick : (tree.tick agent state).outcome =
    (tree.root.dialogue.follow (Leaf.run agent tree.ticks) ⟨state, #[]⟩).outcome := by
  rw [tick, Node.activate_eq_follow]

theorem reports_tick : (tree.tick agent state).reports.toList =
    (tree.evaluations agent state).filterMap (·.diagnostic? agent tree.ticks) := by
  rw [tick, evaluations_eq_dialogue, Node.activate_eq_follow]
  exact Dialogue.reports_follow tree.root.dialogue state #[]

/-- An evaluation is of a leaf of the tree. -/
theorem exists_leaf_of_mem_evaluations {evaluation : Evaluation σ}
    (h : evaluation ∈ tree.evaluations agent state) :
    ∃ position, tree.root.at? position = some (.leaf evaluation.role evaluation.leaf) := by
  rw [evaluations_eq_filterMap, List.mem_filterMap] at h
  obtain ⟨a, ha, hevaluation⟩ := h
  obtain ⟨hleaf, -⟩ := Activation.evaluation?_eq_some_iff.1 hevaluation
  obtain ⟨node, hnode, hfresh⟩ := Activation.fresh_node a ha
  refine ⟨a.position, hnode.trans ?_⟩
  rw [hleaf, Node.fresh] at hfresh
  cases node with
  | composite policy children => cases hfresh
  | loop count child => cases hfresh
  | leaf role leaf => rw [hfresh, Node.fresh]

end Tree

end BehaviorTree
