import BehaviorTree.Proofs.Evaluation
import BehaviorTree.Proofs.Session

/-! # What a tree can know of an agent

A tree sees of an agent what its leaves are answered, and nothing of its state. So two agents, over
states that have nothing to do with each other, cannot be told apart by a tree as long as they
answer alike: a dialogue with either of them goes the same way. It is enough that they answer alike
where all answers before were alike, since up to there they have been asked the same. -/

namespace BehaviorTree

/-- Each answer of one agent is that of the other, as long as all answers before are. -/
def AlikeInTurn (first second : List Answer) : Prop :=
  ∀ k, first.take k = second.take k → ∀ a ∈ first[k]?, ∀ b ∈ second[k]?, a = b

theorem alikeInTurn_refl (answers : List Answer) : AlikeInTurn answers answers := by
  intro k _ a ha b hb
  exact Option.some.inj (ha.symm.trans hb)

theorem AlikeInTurn.of_cons {a b : Answer} {first second : List Answer}
    (h : AlikeInTurn (a :: first) (b :: second)) : a = b ∧ AlikeInTurn first second := by
  obtain rfl : a = b := h 0 rfl a rfl b rfl
  refine ⟨rfl, fun k htake => ?_⟩
  have hlater := h (k + 1)
  rw [List.take_succ_cons, List.take_succ_cons, htake] at hlater
  exact hlater rfl

/-- The leaf that an evaluation asks for, with its capability, its arguments and its path. -/
def Evaluation.asked {σ : Type} (evaluation : Evaluation σ) : Role × Leaf :=
  (evaluation.role, evaluation.leaf)

namespace Dialogue

variable {σ σ' τ : Type} {agent : Agent σ} {agent' : Agent σ'}

def answers (agent : Agent σ) (dialogue : Dialogue τ) (state : σ) : List Answer :=
  (dialogue.evaluations agent state).map (·.answer agent)

theorem exists_answers_ask (agent : Agent σ) (role : Role) (leaf : Leaf) (aborted : τ)
    (next : Status → Dialogue τ) (state : σ) :
    ∃ rest, (ask role leaf aborted next).answers agent state =
      (Evaluation.mk role leaf state).answer agent :: rest := by
  rw [answers, evaluations, List.map_cons]
  exact ⟨_, rfl⟩

/-- A dialogue goes the same way with agents that answer alike. -/
theorem follow_alike (dialogue : Dialogue τ) (tick : UInt64) (state : σ) (state' : σ')
    (reports : Array Diagnostic) {later later' : List Answer}
    (halike : AlikeInTurn (dialogue.answers agent state ++ later)
      (dialogue.answers agent' state' ++ later')) :
    let step := dialogue.follow (Leaf.run agent tick) ⟨state, reports⟩
    let step' := dialogue.follow (Leaf.run agent' tick) ⟨state', reports⟩
    (dialogue.evaluations agent state).map Evaluation.asked =
        (dialogue.evaluations agent' state').map Evaluation.asked ∧
      dialogue.answers agent state = dialogue.answers agent' state' ∧
      step.outcome = step'.outcome ∧ step.state = step'.state ∧
      step.world.reports = step'.world.reports ∧ AlikeInTurn later later' := by
  induction dialogue generalizing state state' reports with
  | ended status left => exact ⟨rfl, rfl, rfl, rfl, rfl, halike⟩
  | ask role leaf aborted next ih =>
      have hanswer : (Evaluation.mk role leaf state).answer agent =
          (Evaluation.mk role leaf state').answer agent' := by
        obtain ⟨rest, hrest⟩ := exists_answers_ask agent role leaf aborted next state
        obtain ⟨rest', hrest'⟩ := exists_answers_ask agent' role leaf aborted next state'
        rw [hrest, hrest'] at halike
        exact halike.of_cons.1
      have hsame := Evaluation.verdict_of_answer_eq hanswer.symm
      have hreport := Evaluation.report_of_answer_eq hanswer tick reports
      -- The same answer is the same verdict: both dialogues are aborted here, or both go on.
      rw [answers, answers] at halike ⊢
      cases hverdict : (Evaluation.mk role leaf state).verdict agent with
      | error e =>
          rw [hverdict] at hsame
          rw [evaluations_ask_of_error hverdict, evaluations_ask_of_error hsame] at halike ⊢
          rw [follow_run_ask_of_error hverdict, follow_run_ask_of_error hsame]
          exact ⟨rfl, congrArg (fun answer => [answer]) hanswer, rfl, rfl, hreport,
            halike.of_cons.2⟩
      | ok status =>
          rw [hverdict] at hsame
          rw [evaluations_ask_of_ok hverdict, evaluations_ask_of_ok hsame] at halike ⊢
          rw [follow_run_ask_of_ok hverdict, follow_run_ask_of_ok hsame, hreport]
          obtain ⟨hasked, hanswers, hstep⟩ := ih status _ _ _ halike.of_cons.2
          exact ⟨congrArg _ hasked, congr (congrArg _ hanswer) hanswers, hstep⟩

end Dialogue

/-! ## Sessions with agents that answer alike -/

/-- What can be seen of a tick by those who do not see the agent: the tree it is of, the leaves it
asks for, its outcome, its diagnostics, and the tree as it is after it. -/
structure Observation (ι : Type) where
  name : ι
  asked : List (Role × Leaf)
  outcome : Except TickError Status
  reports : Array Diagnostic
  tree : Tree

namespace TickStart

variable {ι σ : Type}

def observe (agent : Agent σ) (start : TickStart ι σ) : Observation ι :=
  let ticked := start.tree.tick agent start.agent
  { name := start.name
    asked := (start.tree.evaluations agent start.agent).map Evaluation.asked
    outcome := ticked.outcome
    reports := ticked.reports
    tree := ticked.tree }

/-- What the agent answers in a tick, in order. -/
def answers (agent : Agent σ) (start : TickStart ι σ) : List Answer :=
  (start.tree.evaluations agent start.agent).map (·.answer agent)

/-- A tick goes the same way with agents that answer alike. -/
theorem observe_alike {σ' : Type} {agent : Agent σ} {agent' : Agent σ'} (start : TickStart ι σ)
    (start' : TickStart ι σ') (hname : start.name = start'.name) (htree : start.tree = start'.tree)
    {later later' : List Answer}
    (halike : AlikeInTurn (start.answers agent ++ later) (start'.answers agent' ++ later')) :
    start.observe agent = start'.observe agent' ∧
      start.answers agent = start'.answers agent' ∧ AlikeInTurn later later' := by
  obtain ⟨name, tree, state⟩ := start
  obtain ⟨name', tree', state'⟩ := start'
  obtain rfl : name = name' := hname
  obtain rfl : tree = tree' := htree
  simp only [answers, observe, Tree.evaluations_eq_dialogue, Tree.tick, Node.activate_eq_follow]
    at halike ⊢
  obtain ⟨hasked, hanswers, houtcome, hstate, hreports, hlater⟩ :=
    Dialogue.follow_alike tree.root.dialogue tree.ticks state state' #[] halike
  rw [hasked, houtcome, hstate, hreports]
  exact ⟨rfl, hanswers, hlater⟩

end TickStart

namespace Session

variable {ι σ σ' : Type} [DecidableEq ι]

/-- What the agent answers in a session, in order. -/
def answers (agent : Agent σ) (session : Session ι σ) (occasions : List (Occasion ι σ)) :
    List Answer :=
  (session.starts agent occasions).flatMap (TickStart.answers agent)

theorem answers_cons (agent : Agent σ) (session : Session ι σ) (occasion : Occasion ι σ)
    (rest : List (Occasion ι σ)) :
    session.answers agent (occasion :: rest) =
      (session.start occasion).answers agent ++
        (session.tick agent occasion).answers agent rest := by
  rw [answers, starts, List.flatMap_cons]
  rfl

/-- The trees after a tick follow from the trees before it and from what is seen of it. -/
theorem trees_tick_of_observe {agent : Agent σ} {agent' : Agent σ'} {session : Session ι σ}
    {session' : Session ι σ'} {occasion : Occasion ι σ} {occasion' : Occasion ι σ'}
    (htrees : session.trees = session'.trees) (hname : occasion.name = occasion'.name)
    (hobserve : (session.start occasion).observe agent =
      (session'.start occasion').observe agent') :
    (session.tick agent occasion).trees = (session'.tick agent' occasion').trees := by
  funext name
  by_cases h : name = occasion.name
  · subst h
    calc (session.tick agent occasion).trees occasion.name
        = ((session.start occasion).observe agent).tree := trees_tick_self
      _ = ((session'.start occasion').observe agent').tree := congrArg _ hobserve
      _ = (session'.tick agent' occasion').trees occasion'.name := trees_tick_self.symm
      _ = (session'.tick agent' occasion').trees occasion.name := by rw [hname]
  · rw [trees_tick_of_ne h, trees_tick_of_ne (hname ▸ h), htrees]

/-- Two sessions of the same trees, ticked in the same order, with agents over unrelated states. If
at every evaluation both agents answer alike as long as all answers before were alike, then all
ticks look the same: they ask for the same leaves in the same order, have the same statuses or
errors and the same diagnostics, and leave the same cursors, numbers of ticks and last statuses. -/
theorem observations_of_alike (agent : Agent σ) (agent' : Agent σ') {session : Session ι σ}
    {session' : Session ι σ'} (htrees : session.trees = session'.trees)
    {occasions : List (Occasion ι σ)} {occasions' : List (Occasion ι σ')}
    (hnames : occasions.map (·.name) = occasions'.map (·.name))
    (halike : AlikeInTurn (session.answers agent occasions)
      (session'.answers agent' occasions')) :
    (session.starts agent occasions).map (TickStart.observe agent) =
        (session'.starts agent' occasions').map (TickStart.observe agent') ∧
      (session.run agent occasions).trees = (session'.run agent' occasions').trees := by
  induction occasions generalizing session session' occasions' with
  | nil =>
      obtain rfl : occasions' = [] := List.map_eq_nil_iff.1 hnames.symm
      exact ⟨rfl, htrees⟩
  | cons occasion rest ih =>
      cases occasions' with
      | nil => cases hnames
      | cons occasion' rest' =>
          obtain ⟨hname, hnames⟩ : occasion.name = occasion'.name ∧
              rest.map (·.name) = rest'.map (·.name) := List.cons.inj hnames
          have htree : (session.start occasion).tree = (session'.start occasion').tree := by
            rw [start, start, htrees, hname]
          rw [answers_cons, answers_cons] at halike
          obtain ⟨hobserve, -, hlater⟩ := TickStart.observe_alike (session.start occasion)
            (session'.start occasion') hname htree halike
          -- The tree that is ticked is part of what is seen; the others stay as they are.
          have hnext : (session.tick agent occasion).trees =
              (session'.tick agent' occasion').trees := by
            funext name
            by_cases h : name = occasion.name
            · subst h
              calc (session.tick agent occasion).trees occasion.name
                  = ((session.start occasion).observe agent).tree := trees_tick_self
                _ = ((session'.start occasion').observe agent').tree := congrArg _ hobserve
                _ = (session'.tick agent' occasion').trees occasion'.name := trees_tick_self.symm
                _ = (session'.tick agent' occasion').trees occasion.name := by rw [hname]
            · have h' : name ≠ occasion'.name := by rwa [← hname]
              rw [trees_tick_of_ne h, trees_tick_of_ne h', htrees]
          obtain ⟨hrest, hafter⟩ := ih hnext hnames hlater
          exact ⟨congr (congrArg _ hobserve) hrest, hafter⟩

/-- An agent that counts its invocations and one that keeps their arguments: the third invocation of
either fails with the same message. -/
theorem observations_of_alike_third_fails :
    ∃ (agent : Agent Nat) (agent' : Agent (List Kwargs)) (session : Session Unit Nat)
      (session' : Session Unit (List Kwargs)),
      session.trees = session'.trees ∧
      AlikeInTurn (session.answers agent [⟨(), id⟩, ⟨(), id⟩])
        (session'.answers agent' [⟨(), id⟩, ⟨(), id⟩]) ∧
      .failed ⟨"jammed"⟩ ∈ session.answers agent [⟨(), id⟩, ⟨(), id⟩] ∧
      (session.starts agent [⟨(), id⟩, ⟨(), id⟩]).map (TickStart.observe agent) =
        (session'.starts agent' [⟨(), id⟩, ⟨(), id⟩]).map (TickStart.observe agent') := by
  let shoot : Leaf := ⟨"shoot", .empty, "Loop/0:Shoot"⟩
  let tree : Tree := .ofRoot (.loop 3 (.leaf .action shoot))
  let result (number : Nat) : Except Failure Bool :=
    if number = 2 then .error ⟨"jammed"⟩ else .ok true
  let agent : Agent Nat := ⟨fun _ _ => some ⟨fun state _ => (result state, state + 1)⟩⟩
  let agent' : Agent (List Kwargs) :=
    ⟨fun _ _ => some ⟨fun state kwargs => (result state.length, kwargs :: state)⟩⟩
  let session : Session Unit Nat := ⟨fun _ => tree, 0, .silent⟩
  let session' : Session Unit (List Kwargs) := ⟨fun _ => tree, [], .silent⟩
  have hsame : session.answers agent [⟨(), id⟩, ⟨(), id⟩] =
      session'.answers agent' [⟨(), id⟩, ⟨(), id⟩] := by decide +kernel
  have halike : AlikeInTurn (session.answers agent [⟨(), id⟩, ⟨(), id⟩])
      (session'.answers agent' [⟨(), id⟩, ⟨(), id⟩]) := by
    rw [hsame]
    exact alikeInTurn_refl _
  have htrees : session.trees = session'.trees := rfl
  have hobservations := (observations_of_alike agent agent' htrees rfl halike).1
  exact ⟨agent, agent', session, session', htrees, halike, by decide +kernel, hobservations⟩

end Session

end BehaviorTree
