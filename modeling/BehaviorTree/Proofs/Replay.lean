import BehaviorTree.Proofs.Abort
import BehaviorTree.Proofs.Names
import BehaviorTree.Proofs.Observation
import BehaviorTree.Script

/-! # Recorded sessions, replayed

Let every evaluation of a session return a truth value. A record of what was returned can be made
into a script (`Script.ofRecord`), which gives each capability its own results in order, without the
order in which different capabilities were invoked. A scripted agent restores that order: it counts
the invocations of each capability, so as long as it is asked what the first agent was asked, the
count is the number of results that the record has for the capability up to there
(`ScriptedAgent.Replayed`), and the next result is the one recorded. So it is asked the same, and
the session goes the same way. -/

namespace BehaviorTree

/-- An invocation that has returned. -/
structure Return where
  capability : String
  result : Bool
  deriving DecidableEq

/-! ## Records and scripts -/

/-- What a capability returned, in order. -/
def resultsOf (name : String) (record : List Return) : List Bool :=
  (record.filter (·.capability = name)).map (·.result)

section Results

variable {name : String} {record : List Return}

@[simp] theorem resultsOf_nil : resultsOf name [] = [] := rfl

@[simp] theorem resultsOf_append (name : String) (first second : List Return) :
    resultsOf name (first ++ second) = resultsOf name first ++ resultsOf name second := by
  rw [resultsOf, List.filter_append, List.map_append]
  rfl

@[simp] theorem resultsOf_cons_self (result : Bool) :
    resultsOf name (⟨name, result⟩ :: record) = result :: resultsOf name record := by
  rw [resultsOf, List.filter_cons_of_pos (by simp)]
  rfl

theorem resultsOf_cons_of_ne {entry : Return} (h : entry.capability ≠ name) :
    resultsOf name (entry :: record) = resultsOf name record := by
  rw [resultsOf, List.filter_cons_of_neg (by simpa using h)]
  rfl

/-- A capability has as many results as it occurs in the record. -/
theorem length_resultsOf (name : String) (record : List Return) :
    (resultsOf name record).length = (record.map (·.capability)).count name := by
  rw [resultsOf, List.length_map, List.count, List.countP_map, List.countP_eq_length_filter]
  rfl

end Results

namespace Script

/-- A script gives every capability in a record the results that it has there. -/
def Gives (script : Script) (record : List Return) : Prop :=
  ∀ name ∈ record.map (·.capability), ∃ written, script.get? name = some written ∧
    written.InTurn (resultsOf name record)

/-- The script that a record gives rise to. -/
def ofRecord (record : List Return) : Script :=
  .ofList ((record.map (·.capability)).map fun name => (name, .cycle (resultsOf name record)))

theorem gives_ofRecord (record : List Return) : (ofRecord record).Gives record := by
  intro name hname
  have hwritten := NameMap.get?_ofList_map
    (fun name => CapabilityScript.cycle (resultsOf name record)) hname
  exact ⟨_, hwritten, .cycle⟩

end Script

/-! ## Scripted agents that replay a record -/

namespace ScriptedAgent

/-- A scripted agent has been invoked as a record says. -/
structure Replayed (script : Script) (record : List Return) (state : ScriptedAgent) : Prop where
  behaviors_eq : state.behaviors = (ofScript script).behaviors
  get?_invocations : ∀ name, state.invocations.get? name =
    if (resultsOf name record).length = 0 then none else some (resultsOf name record).length

theorem replayed_ofScript (script : Script) : (ofScript script).Replayed script [] :=
  ⟨rfl, fun _ => rfl⟩

section Replayed

variable {script : Script} {earlier later : List Return} {state : ScriptedAgent} {name : String}
  {result : Bool}

theorem Replayed.count_eq (h : state.Replayed script earlier) :
    state.count name = (resultsOf name earlier).length := by
  rw [count, h.get?_invocations]
  split
  · rename_i hzero
    exact hzero.symm
  · rfl

theorem Replayed.counted (h : state.Replayed script earlier) :
    (state.counted name).Replayed script (earlier ++ [⟨name, result⟩]) := by
  refine ⟨h.behaviors_eq, ?_⟩
  intro other
  rw [ScriptedAgent.counted, NameMap.get?_insert, h.count_eq, h.get?_invocations]
  by_cases hname : other = name
  · simp [hname]
  · have hother : resultsOf other [⟨name, result⟩] = [] := resultsOf_cons_of_ne (Ne.symm hname)
    simp [hname, hother]

/-- The count stays below the number of results, so they are not taken in turn again. -/
theorem reply_of_record :
    (Behavior.mk (resultsOf name (earlier ++ ⟨name, result⟩ :: later)) none).reply
      (resultsOf name earlier).length = .ok result := by
  rw [resultsOf_append, resultsOf_cons_self]
  have hlt : (resultsOf name earlier).length <
      (resultsOf name earlier ++ result :: resultsOf name later).length := by
    simp
  have hresult : (resultsOf name earlier ++ result :: resultsOf name later)[
      (resultsOf name earlier).length]? = some result := by
    simp
  unfold Behavior.reply
  simp only [Nat.mod_eq_of_lt hlt, hresult]

/-- Asked for the capability that is next in the record, the agent returns the next result. -/
theorem Replayed.ask {leaf : Leaf} (h : state.Replayed script earlier)
    (hgives : script.Gives (earlier ++ ⟨leaf.capability, result⟩ :: later)) :
    leaf.ask agent state = (.returned result, state.counted leaf.capability) := by
  obtain ⟨written, hwritten, hturn⟩ := hgives leaf.capability (by simp)
  have hbehavior := get?_behaviors_ofScript script leaf.capability
  rw [hwritten, Option.map_some, Behavior.ofScript_of_inTurn hturn, ← h.behaviors_eq] at hbehavior
  rw [Leaf.ask_of_found (capability?_of_get? hbehavior)]
  dsimp only
  rw [invoke_of_get? hbehavior, h.count_eq, reply_of_record]
  rfl

end Replayed

end ScriptedAgent

/-! ## Evaluations that return -/

section Record

variable {σ τ : Type}

/-- What an evaluation adds to a record. -/
def Evaluation.return? (agent : Agent σ) (evaluation : Evaluation σ) : Option Return :=
  match evaluation.answer agent with
  | .returned result => some ⟨evaluation.leaf.capability, result⟩
  | _ => none

/-- The record of evaluations: the invocations that have returned, in order. -/
def recordOf (agent : Agent σ) (evaluations : List (Evaluation σ)) : List Return :=
  evaluations.filterMap (·.return? agent)

/-- All evaluations return: each finds its capability, which returns a truth value. -/
def AllReturn (agent : Agent σ) (evaluations : List (Evaluation σ)) : Prop :=
  ∀ evaluation ∈ evaluations, ∃ result, evaluation.answer agent = .returned result

variable {agent : Agent σ} {evaluation : Evaluation σ} {evaluations : List (Evaluation σ)}

theorem recordOf_cons {result : Bool} (h : evaluation.answer agent = .returned result) :
    recordOf agent (evaluation :: evaluations) =
      ⟨evaluation.leaf.capability, result⟩ :: recordOf agent evaluations := by
  apply List.filterMap_cons_some
  rw [Evaluation.return?, h]

theorem allReturn_cons : AllReturn agent (evaluation :: evaluations) ↔
    (∃ result, evaluation.answer agent = .returned result) ∧ AllReturn agent evaluations :=
  List.forall_mem_cons

theorem map_capability_recordOf (h : AllReturn agent evaluations) :
    (recordOf agent evaluations).map (·.capability) = evaluations.map (·.leaf.capability) := by
  induction evaluations with
  | nil => rfl
  | cons first rest ih =>
      obtain ⟨⟨result, hresult⟩, hrest⟩ := allReturn_cons.1 h
      rw [recordOf_cons hresult, List.map_cons, List.map_cons, ih hrest]

namespace Dialogue

variable {script : Script}

/-- A dialogue in which all evaluations return goes the same way with a scripted agent that has been
invoked as the record says up to there, and leaves it invoked as the record says from there on. -/
theorem replay (dialogue : Dialogue τ) (tick : UInt64) (state : σ) (state' : ScriptedAgent)
    (reports : Array Diagnostic) {earlier later : List Return}
    (hreturn : AllReturn agent (dialogue.evaluations agent state))
    (hgives : script.Gives
      (earlier ++ (recordOf agent (dialogue.evaluations agent state) ++ later)))
    (hreplayed : state'.Replayed script earlier) :
    dialogue.answers ScriptedAgent.agent state' = dialogue.answers agent state ∧
      (dialogue.follow (Leaf.run ScriptedAgent.agent tick) ⟨state', reports⟩).world.agent.Replayed
        script (earlier ++ recordOf agent (dialogue.evaluations agent state)) := by
  induction dialogue generalizing state state' reports earlier with
  | ended status left =>
      refine ⟨rfl, ?_⟩
      rw [evaluations, recordOf, List.filterMap_nil, List.append_nil]
      exact hreplayed
  | ask role leaf aborted next ih =>
      have hfirst : Evaluation.mk role leaf state ∈
          (ask role leaf aborted next).evaluations agent state := by
        rw [evaluations]
        exact List.mem_cons_self
      obtain ⟨result, hanswer⟩ := hreturn _ hfirst
      have hverdict : (Evaluation.mk role leaf state).verdict agent = .ok (.ofBool result) := by
        rw [Evaluation.verdict, hanswer]
        rfl
      rw [evaluations_ask_of_ok hverdict] at hreturn hgives ⊢
      rw [recordOf_cons hanswer] at hgives ⊢
      -- The first result of what is still to come is what the scripted agent answers.
      have hask := hreplayed.ask hgives
      have hanswer' : (Evaluation.mk role leaf state').answer ScriptedAgent.agent =
          .returned result := congrArg Prod.fst hask
      have hleft' : (Evaluation.mk role leaf state').left ScriptedAgent.agent =
          state'.counted leaf.capability := congrArg Prod.snd hask
      have hsame := Evaluation.verdict_of_answer_eq (hanswer'.trans hanswer.symm)
      rw [hverdict] at hsame
      rw [List.cons_append, List.append_cons] at hgives
      rw [answers, answers, evaluations_ask_of_ok hverdict, evaluations_ask_of_ok hsame,
        follow_run_ask_of_ok hsame, hleft', List.append_cons, List.map_cons, List.map_cons, hanswer,
        hanswer']
      obtain ⟨hanswers, hlater⟩ := ih (.ofBool result) ((Evaluation.mk role leaf state).left agent)
        (state'.counted leaf.capability) _ (allReturn_cons.1 hreturn).2 hgives hreplayed.counted
      exact ⟨congrArg _ hanswers, hlater⟩

end Dialogue

/-- The tick of a tree in which all evaluations return goes the same way with a scripted agent. -/
theorem TickStart.replay {ι : Type} {script : Script} (start : TickStart ι σ)
    (state : ScriptedAgent) {earlier later : List Return}
    (hreturn : AllReturn agent (start.tree.evaluations agent start.agent))
    (hgives : script.Gives
      (earlier ++ (recordOf agent (start.tree.evaluations agent start.agent) ++ later)))
    (hreplayed : state.Replayed script earlier) :
    (TickStart.mk start.name start.tree state).observe ScriptedAgent.agent = start.observe agent ∧
      (start.tree.tick ScriptedAgent.agent state).agent.Replayed script
        (earlier ++ recordOf agent (start.tree.evaluations agent start.agent)) := by
  obtain ⟨name, tree, original⟩ := start
  rw [Tree.evaluations_eq_dialogue] at hreturn hgives ⊢
  obtain ⟨hanswers, hafter⟩ :=
    tree.root.dialogue.replay tree.ticks original state #[] hreturn hgives hreplayed
  constructor
  · have hsame : (TickStart.mk name tree state).answers ScriptedAgent.agent =
        (TickStart.mk name tree original).answers agent := by
      rw [answers, answers, Tree.evaluations_eq_dialogue, Tree.evaluations_eq_dialogue]
      exact hanswers
    have halike : AlikeInTurn ((TickStart.mk name tree state).answers ScriptedAgent.agent ++ [])
        ((TickStart.mk name tree original).answers agent ++ []) := by
      rw [hsame]
      exact alikeInTurn_refl _
    exact (observe_alike ⟨name, tree, state⟩ ⟨name, tree, original⟩ rfl rfl halike).1
  · rw [Tree.tick, Node.activate_eq_follow]
    exact hafter

end Record

/-! ## Sessions in which all evaluations return -/

namespace Session

variable {ι σ : Type} [DecidableEq ι] {agent : Agent σ}

def evaluations (agent : Agent σ) (session : Session ι σ) (occasions : List (Occasion ι σ)) :
    List (Evaluation σ) :=
  (session.starts agent occasions).flatMap fun start => start.tree.evaluations agent start.agent

/-- The same occasions with a scripted agent, which does not change by itself. -/
def again (occasions : List (Occasion ι σ)) : List (Occasion ι ScriptedAgent) :=
  occasions.map fun occasion => ⟨occasion.name, id⟩

theorem evaluations_cons (session : Session ι σ) (occasion : Occasion ι σ)
    (rest : List (Occasion ι σ)) : session.evaluations agent (occasion :: rest) =
      (session.start occasion).tree.evaluations agent (session.start occasion).agent ++
        (session.tick agent occasion).evaluations agent rest := by
  rw [evaluations, starts, List.flatMap_cons]
  rfl

/-- Where a scripted agent has been invoked as the record says, a session goes on as recorded. -/
theorem replay_from {script : Script} (session : Session ι σ) (session' : Session ι ScriptedAgent)
    (occasions : List (Occasion ι σ)) {earlier : List Return}
    (htrees : session'.trees = session.trees)
    (hreturn : AllReturn agent (session.evaluations agent occasions))
    (hgives : script.Gives (earlier ++ recordOf agent (session.evaluations agent occasions)))
    (hreplayed : session'.agent.Replayed script earlier) :
    (session'.starts ScriptedAgent.agent (again occasions)).map
          (TickStart.observe ScriptedAgent.agent) =
        (session.starts agent occasions).map (TickStart.observe agent) ∧
      (session'.run ScriptedAgent.agent (again occasions)).trees =
        (session.run agent occasions).trees ∧
      (session'.run ScriptedAgent.agent (again occasions)).agent.Replayed script
        (earlier ++ recordOf agent (session.evaluations agent occasions)) := by
  induction occasions generalizing session session' earlier with
  | nil =>
      refine ⟨rfl, htrees, ?_⟩
      rw [evaluations, starts, List.flatMap_nil, recordOf, List.filterMap_nil, List.append_nil]
      exact hreplayed
  | cons occasion rest ih =>
      rw [evaluations_cons] at hreturn hgives ⊢
      obtain ⟨hfirst, hrest⟩ := List.forall_mem_append.1 hreturn
      rw [recordOf, List.filterMap_append, ← recordOf, ← recordOf] at hgives ⊢
      obtain ⟨hobserve, hafter⟩ :=
        (session.start occasion).replay session'.agent hfirst hgives hreplayed
      have hstart : session'.start ⟨occasion.name, id⟩ =
          ⟨(session.start occasion).name, (session.start occasion).tree, session'.agent⟩ := by
        rw [start, htrees]
        rfl
      have hsame : (session'.start ⟨occasion.name, id⟩).observe ScriptedAgent.agent =
          (session.start occasion).observe agent := by
        rw [hstart]
        exact hobserve
      have hnext := trees_tick_of_observe htrees rfl hsame
      have hagent : (session'.tick ScriptedAgent.agent ⟨occasion.name, id⟩).agent =
          ((session.start occasion).tree.tick ScriptedAgent.agent session'.agent).agent := by
        rw [start, ← htrees]
        rfl
      rw [← List.append_assoc] at hgives ⊢
      obtain ⟨hobservations, hlater⟩ := ih _ _ hnext hrest hgives (hagent ▸ hafter)
      exact ⟨congr (congrArg _ hsame) hobservations, hlater⟩

/-- Record and replay. Let every evaluation of a session return: each capability that is looked up
is there, and returns a truth value. Let a script give every capability of the session the results
that it returned, in order. Then the same trees, ticked in the same order with an agent that replays
the script, evaluate the same leaves in the same order, have the same statuses and leave the same
cursors at every tick, and the agent has counted how often each capability was invoked. -/
theorem replays_recorded_session (agent : Agent σ) (session : Session ι σ)
    (occasions : List (Occasion ι σ))
    (hreturn : AllReturn agent (session.evaluations agent occasions)) :
    let record := recordOf agent (session.evaluations agent occasions)
    (Script.ofRecord record).Gives record ∧ ∀ script : Script, script.Gives record → ∀ sink,
      let replay : Session ι ScriptedAgent := ⟨session.trees, .ofScript script, sink⟩
      (replay.starts ScriptedAgent.agent (again occasions)).map
            (TickStart.observe ScriptedAgent.agent) =
          (session.starts agent occasions).map (TickStart.observe agent) ∧
        (replay.run ScriptedAgent.agent (again occasions)).trees =
          (session.run agent occasions).trees ∧
        ∀ name, (replay.run ScriptedAgent.agent (again occasions)).agent.invocations.get? name =
          let times := ((session.evaluations agent occasions).map (·.leaf.capability)).count name
          if times = 0 then none else some times := by
  intro record
  refine ⟨Script.gives_ofRecord record, ?_⟩
  intro script hgives sink replay
  obtain ⟨hobservations, htrees, hreplayed⟩ := replay_from session replay occasions rfl hreturn
    hgives (ScriptedAgent.replayed_ofScript script)
  refine ⟨hobservations, htrees, ?_⟩
  intro name
  rw [hreplayed.get?_invocations, List.nil_append, length_resultsOf,
    map_capability_recordOf hreturn]

/-- Two capabilities in turn, and one of them besides: three ticks, before the last of which the
agent changes by itself. -/
theorem replays_recorded_session_interleaved :
    ∃ (spec : Spec) (root : Node) (agent : Agent Nat) (session : Session Unit Nat)
      (occasions : List (Occasion Unit Nat)) (script : Script),
      spec.compile .default = .ok root ∧ session.trees = (fun _ => .ofRoot root) ∧
      AllReturn agent (session.evaluations agent occasions) ∧
      script.Gives (recordOf agent (session.evaluations agent occasions)) ∧
      script.get? "hastarget" = some (.cycle [true, true, false, false]) ∧
      let replay : Session Unit ScriptedAgent := ⟨session.trees, .ofScript script, session.sink⟩
      (replay.starts ScriptedAgent.agent (again occasions)).map
            (TickStart.observe ScriptedAgent.agent) =
          (session.starts agent occasions).map (TickStart.observe agent) := by
  let turns : Spec :=
    (Spec.composite "Alternate").withChildren [.action "Attack", .condition "HasTarget"]
  let spec : Spec := (Spec.composite "Parallel").withChildren [.condition "HasTarget", turns]
  let leaf (role : Role) (name path : String) : Node := .leaf role ⟨name, .empty, path⟩
  let root : Node := .composite .parallel [leaf .condition "hastarget" "Parallel/0:HasTarget",
    .composite (.alternate 0) [leaf .action "attack" "Parallel/1:Alternate/0:Attack",
      leaf .condition "hastarget" "Parallel/1:Alternate/1:HasTarget"]]
  have hcompile : spec.compile .default = .ok root := rfl
  let agent : Agent Nat := ⟨fun _ _ => some ⟨fun state _ => (.ok (state % 2 = 0), state + 1)⟩⟩
  let session : Session Unit Nat := ⟨fun _ => .ofRoot root, 0, .silent⟩
  let occasions : List (Occasion Unit Nat) := [⟨(), id⟩, ⟨(), id⟩, ⟨(), (· + 1)⟩]
  have hreturn : AllReturn agent (session.evaluations agent occasions) := by
    unfold AllReturn
    decide +kernel
  obtain ⟨hgives, hreplays⟩ := replays_recorded_session agent session occasions hreturn
  refine ⟨spec, root, agent, session, occasions, _, hcompile, rfl, hreturn, hgives, ?_,
    (hreplays _ hgives session.sink).1⟩
  decide +kernel

end Session

end BehaviorTree
