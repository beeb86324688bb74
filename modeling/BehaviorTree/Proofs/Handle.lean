import Mathlib.Logic.Function.Basic
import BehaviorTree.Proofs.Reports

/-! # One tree, many agents and sinks

A tree can be ticked against one agent after another, each tick with a sink of its own choice. The
tree counts these ticks and remembers the status of the last one, whatever comes of them, and the
number that it had before a tick is on the diagnostics of that tick. The sinks have no part in
anything else. This is not for the reason alone that a tick first collects its diagnostics: a tick
whose leaves report at once, while it goes on, is the same tick (`Tree.tickReporting_eq`). -/

namespace BehaviorTree

/-! ## Leaves that report at once -/

/-- What a tick acts on whose leaves report at once: the state of the agent, the sink, and what the
sink has logged. -/
structure ReportingWorld (σ : Type) where
  agent : σ
  sink : Sink
  logged : List Event

/-- A leaf of a tick with this number, which reports to the sink what there is to report. -/
def Leaf.runReporting {σ : Type} (agent : Agent σ) (tick : UInt64) : LeafRun (ReportingWorld σ) :=
  fun role leaf world =>
    let (answer, state) := leaf.ask agent world.agent
    let (sink, logged) := world.sink.reportAll (leaf.diagnostic? tick role answer).toList
    (leaf.verdict role answer, ⟨state, sink, world.logged ++ logged⟩)

/-- Ticks a tree once, with its leaves reporting to a sink at once. It comes to an outcome, and
leaves the tree, the state of the agent, the sink, and the events that are logged. -/
def Tree.tickReporting {σ : Type} (agent : Agent σ) (tree : Tree) (state : σ) (sink : Sink) :
    Except TickError Status × Tree × σ × Sink × List Event :=
  let step := tree.root.activate (Leaf.runReporting agent tree.ticks) ⟨state, sink, []⟩
  let aborted := match step.outcome with
    | .ok _ => []
    | .error e => [.tickAborted tree.ticks e]
  (step.outcome, ⟨step.state, nextTick tree.ticks, step.outcome.toOption⟩, step.world.agent,
    step.world.sink, step.world.logged ++ aborted)

/-- Reporting at once changes nothing in a dialogue, and the sink gets the diagnostics of its
evaluations in order. -/
theorem Dialogue.follow_runReporting {σ τ : Type} {agent : Agent σ} (dialogue : Dialogue τ)
    (tick : UInt64) (world : ReportingWorld σ) (reports : Array Diagnostic) :
    dialogue.follow (Leaf.runReporting agent tick) world =
      let step := dialogue.follow (Leaf.run agent tick) ⟨world.agent, reports⟩
      let diagnostics := (dialogue.evaluations agent world.agent).filterMap
        (·.diagnostic? agent tick)
      ⟨step.outcome, step.state, step.world.agent, (world.sink.reportAll diagnostics).1,
        world.logged ++ (world.sink.reportAll diagnostics).2⟩ := by
  induction dialogue generalizing world reports with
  | ended status left => simp [follow, evaluations, Sink.reportAll]
  | ask role leaf aborted next ih =>
      obtain ⟨state, sink, logged⟩ := world
      cases hverdict : (Evaluation.mk role leaf state).verdict agent with
      | error e =>
          rw [follow_ask_of_error hverdict, follow_run_ask_of_error hverdict,
            evaluations_ask_of_error hverdict, filterMap_cons_eq_append, List.filterMap_nil,
            List.append_nil]
          rfl
      | ok status =>
          -- What this leaf reports comes first, and the sink that it leaves takes the rest.
          rw [follow_ask_of_ok hverdict, follow_run_ask_of_ok hverdict,
            evaluations_ask_of_ok hverdict, filterMap_cons_eq_append, ih]
          dsimp only
          rw [Sink.reportAll_append, ← List.append_assoc]
          rfl

namespace Tree

variable {σ : Type} (agent : Agent σ) (tree : Tree) (state : σ)

/-- A tick whose leaves report at once is the same tick, for every sink. -/
theorem tickReporting_eq (sink : Sink) : tree.tickReporting agent state sink =
    let (ticked, sink, events) := tree.tickInto agent state sink
    (ticked.outcome, ticked.tree, ticked.agent, sink, events) := by
  rw [tickReporting, tickInto, reports_tick, evaluations_eq_dialogue, tick]
  simp only [Node.activate_eq_follow]
  rw [Dialogue.follow_runReporting tree.root.dialogue tree.ticks ⟨state, sink, []⟩ #[]]
  rfl

theorem toNat_nextTick (n : UInt64) :
    (nextTick n).toNat = min (n.toNat + 1) 0xffffffffffffffff := by
  rw [nextTick]
  by_cases hmax : n = 0xffffffffffffffff
  · rw [if_pos hmax, hmax]
    rfl
  · have hlt := n.toNat_lt
    have hne : n.toNat ≠ 0xffffffffffffffff := fun heq => hmax (UInt64.toNat_inj.1 heq)
    rw [if_neg hmax, UInt64.toNat_add]
    simp only [UInt64.reduceToNat]
    omega

variable {agent tree state} in
theorem tick_of_mem_reports {diagnostic : Diagnostic}
    (h : diagnostic ∈ (tree.tick agent state).reports) : diagnostic.tick = tree.ticks := by
  rw [← Array.mem_toList_iff, reports_tick, List.mem_filterMap] at h
  obtain ⟨evaluation, -, h⟩ := h
  rw [Evaluation.diagnostic?_eq, Option.map_eq_some_iff] at h
  obtain ⟨failure, -, rfl⟩ := h
  rfl

end Tree

/-! ## Runs of one tree -/

/-- One tree with several agents, each with states of its own kind, and several sinks. -/
structure Handle {α : Type} (σ : α → Type) (κ : Type) where
  tree : Tree
  agents : ∀ name, σ name
  sinks : κ → Sink

/-- A request for a tick: the name of the agent, and what becomes of it before. -/
structure TickRequest {α : Type} (σ : α → Type) where
  agent : α
  meanwhile : σ agent → σ agent

/-- A request with the name of the sink that the tick is to report to. -/
structure TickCall {α : Type} (σ : α → Type) (κ : Type) extends TickRequest σ where
  sink : κ

namespace Handle

variable {α : Type} {σ : α → Type} {κ : Type}

def ticked (agent : ∀ name, Agent (σ name)) (handle : Handle σ κ) (request : TickRequest σ) :
    Ticked (σ request.agent) :=
  handle.tree.tick (agent request.agent) (request.meanwhile (handle.agents request.agent))

variable [DecidableEq α] [DecidableEq κ]

def tick (agent : ∀ name, Agent (σ name)) (handle : Handle σ κ) (call : TickCall σ κ) :
    Handle σ κ :=
  let (ticked, sink, _) := handle.tree.tickInto (agent call.agent)
    (call.meanwhile (handle.agents call.agent)) (handle.sinks call.sink)
  { tree := ticked.tree
    agents := Function.update handle.agents call.agent ticked.agent
    sinks := Function.update handle.sinks call.sink sink }

def run (agent : ∀ name, Agent (σ name)) (handle : Handle σ κ) : List (TickCall σ κ) → Handle σ κ
  | [] => handle
  | call :: rest => (handle.tick agent call).run agent rest

/-- What comes of several ticks, with the names of the agents. -/
def made (agent : ∀ name, Agent (σ name)) (handle : Handle σ κ) :
    List (TickCall σ κ) → List (Σ name, Ticked (σ name))
  | [] => []
  | call :: rest =>
      ⟨call.agent, handle.ticked agent call.toTickRequest⟩ ::
        (handle.tick agent call).made agent rest

variable {agent : ∀ name, Agent (σ name)} {handle : Handle σ κ} {call : TickCall σ κ}

@[simp] theorem tree_tick :
    (handle.tick agent call).tree = (handle.ticked agent call.toTickRequest).tree := rfl

@[simp] theorem agents_tick : (handle.tick agent call).agents =
    Function.update handle.agents call.agent (handle.ticked agent call.toTickRequest).agent := rfl

@[simp] theorem sinks_tick : (handle.tick agent call).sinks =
    Function.update handle.sinks call.sink ((handle.sinks call.sink).reportAll
      (handle.ticked agent call.toTickRequest).reports.toList).1 := rfl

/-- The diagnostics of the ticks that report to the sink with this name, tick by tick. -/
def reportedTo (agent : ∀ name, Agent (σ name)) (handle : Handle σ κ) (name : κ)
    (calls : List (TickCall σ κ)) : List Diagnostic :=
  ((calls.zip (handle.made agent calls)).filter (·.1.sink = name)).flatMap
    fun (_, made) => made.2.reports.toList

variable (handle) (calls : List (TickCall σ κ))

theorem toNat_ticks_tick : (handle.tick agent call).tree.ticks.toNat =
    min (handle.tree.ticks.toNat + 1) 0xffffffffffffffff :=
  Tree.toNat_nextTick handle.tree.ticks

theorem length_made : (handle.made agent calls).length = calls.length := by
  induction calls generalizing handle with
  | nil => rfl
  | cons call rest ih => rw [made, List.length_cons, ih, List.length_cons]

/-- Every tick counts, also one that is aborted, until the greatest number is reached. -/
theorem ticks_run : (handle.run agent calls).tree.ticks.toNat =
    min (handle.tree.ticks.toNat + calls.length) 0xffffffffffffffff := by
  induction calls generalizing handle with
  | nil =>
      have hlt := handle.tree.ticks.toNat_lt
      rw [run, List.length_nil]
      omega
  | cons call rest ih =>
      rw [run, ih, toNat_ticks_tick, List.length_cons]
      omega

/-- The number on a diagnostic is that of the ticks before. -/
theorem tick_of_made {i : Nat} {made : Σ name, Ticked (σ name)}
    (hmade : (handle.made agent calls)[i]? = some made) {diagnostic : Diagnostic}
    (h : diagnostic ∈ made.2.reports) :
    diagnostic.tick.toNat = min (handle.tree.ticks.toNat + i) 0xffffffffffffffff := by
  induction calls generalizing handle i with
  | nil => cases hmade
  | cons call rest ih =>
      cases i with
      | zero =>
          cases hmade
          have hlt := handle.tree.ticks.toNat_lt
          rw [Tree.tick_of_mem_reports h]
          omega
      | succ i =>
          rw [ih (handle.tick agent call) hmade, toNat_ticks_tick]
          omega

/-- The status that is remembered is that of the last tick, if it has one. -/
theorem last_run : (handle.run agent calls).tree.last =
    ((handle.made agent calls).getLast?.map (·.2.outcome.toOption)).getD handle.tree.last := by
  induction calls generalizing handle with
  | nil => rfl
  | cons call rest ih =>
      rw [run, made, ih, List.getLast?_cons]
      cases ((handle.tick agent call).made agent rest).getLast? with
      | none => rfl
      | some made => rfl

theorem reportedTo_cons (call : TickCall σ κ) (rest : List (TickCall σ κ)) (name : κ) :
    handle.reportedTo agent name (call :: rest) =
      (if call.sink = name then (handle.ticked agent call.toTickRequest).reports.toList else []) ++
        (handle.tick agent call).reportedTo agent name rest := by
  by_cases hname : call.sink = name <;> simp [reportedTo, made, hname]

/-- A sink that keeps diagnostics gains those of the ticks that report to it. -/
theorem sinks_run {name : κ} {kept : List Diagnostic} (h : handle.sinks name = .keeping kept) :
    (handle.run agent calls).sinks name =
      .keeping (kept ++ handle.reportedTo agent name calls) := by
  induction calls generalizing handle kept with
  | nil => simpa [run, reportedTo] using h
  | cons call rest ih =>
      rw [run, reportedTo_cons, ← List.append_assoc]
      refine ih _ ?_
      by_cases hname : call.sink = name
      · subst hname
        rw [sinks_tick, Function.update_self, h, Sink.reportAll_keeping, if_pos rfl]
      · rw [sinks_tick, Function.update_of_ne (Ne.symm hname), h, if_neg hname, List.append_nil]

theorem le_tick_of_mem_reportedTo {name : κ} {diagnostic : Diagnostic}
    (h : diagnostic ∈ handle.reportedTo agent name calls) :
    handle.tree.ticks.toNat ≤ diagnostic.tick.toNat := by
  induction calls generalizing handle with
  | nil => cases h
  | cons call rest ih =>
      rw [reportedTo_cons, List.mem_append, List.mem_ite_nil_right] at h
      rcases h with ⟨-, h⟩ | h
      · exact Nat.le_of_eq (by rw [Tree.tick_of_mem_reports (Array.mem_toList_iff.1 h)])
      · have hlater := ih (handle.tick agent call) h
        have hlt := handle.tree.ticks.toNat_lt
        rw [toNat_ticks_tick] at hlater
        omega

/-- What a sink gains is in the order of the ticks. -/
theorem pairwise_reportedTo (name : κ) :
    (handle.reportedTo agent name calls).Pairwise (·.tick.toNat ≤ ·.tick.toNat) := by
  induction calls generalizing handle with
  | nil => exact .nil
  | cons call rest ih =>
      have hfirst : ∀ diagnostic ∈ (if call.sink = name then
          (handle.ticked agent call.toTickRequest).reports.toList else []),
          diagnostic.tick = handle.tree.ticks := by
        intro diagnostic h
        rw [List.mem_ite_nil_right] at h
        exact Tree.tick_of_mem_reports (Array.mem_toList_iff.1 h.2)
      rw [reportedTo_cons, List.pairwise_append]
      refine ⟨List.pairwise_of_forall_mem_list ?_, ih _, ?_⟩
      · intro a ha b hb
        exact Nat.le_of_eq (by rw [hfirst a ha, hfirst b hb])
      · intro a ha b hb
        have hlater := le_tick_of_mem_reportedTo _ rest hb
        have hlt := handle.tree.ticks.toNat_lt
        rw [toNat_ticks_tick] at hlater
        rw [hfirst a ha]
        omega

/-- The sinks have no part in what comes of the ticks and what they leave of the tree and agents. -/
theorem same_of_requests_eq {κ' : Type} [DecidableEq κ'] (other : Handle σ κ')
    (calls' : List (TickCall σ κ')) (htree : other.tree = handle.tree)
    (hagents : other.agents = handle.agents)
    (hrequests : calls'.map (·.toTickRequest) = calls.map (·.toTickRequest)) :
    other.made agent calls' = handle.made agent calls ∧
      (other.run agent calls').tree = (handle.run agent calls).tree ∧
      (other.run agent calls').agents = (handle.run agent calls).agents := by
  induction calls generalizing handle other calls' with
  | nil =>
      obtain rfl : calls' = [] := List.map_eq_nil_iff.1 hrequests
      exact ⟨rfl, htree, hagents⟩
  | cons call rest ih =>
      obtain ⟨call', rest', rfl, hfirst, hrest⟩ := List.map_eq_cons_iff.1 hrequests
      obtain ⟨request, sink⟩ := call
      obtain ⟨request', sink'⟩ := call'
      obtain rfl : request' = request := hfirst
      -- The tick itself knows nothing of sinks, so both leave the same tree and agents again.
      have hticked : other.ticked agent request' = handle.ticked agent request' := by
        rw [ticked, ticked, htree, hagents]
      obtain ⟨hmade, hrun⟩ := ih (handle.tick agent ⟨request', sink⟩)
        (other.tick agent ⟨request', sink'⟩) rest' (by simp [hticked]) (by simp [hticked, hagents])
        hrest
      refine ⟨?_, hrun⟩
      rw [made, made, hmade, hticked]

/-- What is true of a tree after any ticks, each against one of several agents and with one of
several sinks, whatever comes of them. It has counted them all, and each has the number of those
before it on its diagnostics; both numbers stay at the greatest one when it is reached. The status
that it remembers is that of the last tick, and none if there was no tick or the last one was
aborted. A sink that keeps diagnostics has gained those of the ticks that reported to it, in the
order of the ticks. With other sinks all the same comes of the ticks, and the same is left of the
tree and the agents; and it makes no difference if the leaves report to the sinks at once. -/
theorem run_counts_and_remembers (agent : ∀ name, Agent (σ name)) (root : Node)
    (agents : ∀ name, σ name) (sinks : κ → Sink) (calls : List (TickCall σ κ)) :
    let start : Handle σ κ := ⟨.ofRoot root, agents, sinks⟩
    let final := start.run agent calls
    let made := start.made agent calls
    final.tree.ticks.toNat = min calls.length 0xffffffffffffffff ∧
      made.length = calls.length ∧
      (∀ i ticked, made[i]? = some ticked → ∀ diagnostic ∈ ticked.2.reports,
        diagnostic.tick.toNat = min i 0xffffffffffffffff) ∧
      (∀ status, final.tree.last = some status ↔
        ∃ ticked ∈ made.getLast?, ticked.2.outcome = .ok status) ∧
      (∀ name kept, sinks name = .keeping kept →
        let reported := start.reportedTo agent name calls
        final.sinks name = .keeping (kept ++ reported) ∧
          reported.Pairwise (·.tick.toNat ≤ ·.tick.toNat)) ∧
      (∀ (κ' : Type) [DecidableEq κ'] (sinks' : κ' → Sink) (calls' : List (TickCall σ κ')),
        calls'.map (·.toTickRequest) = calls.map (·.toTickRequest) →
          let other : Handle σ κ' := ⟨.ofRoot root, agents, sinks'⟩
          other.made agent calls' = made ∧ (other.run agent calls').tree = final.tree ∧
            (other.run agent calls').agents = final.agents) ∧
      ∀ name (tree : Tree) (state : σ name) (sink : Sink),
        tree.tickReporting (agent name) state sink =
          let (ticked, sink, events) := tree.tickInto (agent name) state sink
          (ticked.outcome, ticked.tree, ticked.agent, sink, events) := by
  intro start final made
  have hzero : start.tree.ticks.toNat = 0 := rfl
  have hnone : start.tree.last = none := rfl
  refine ⟨?_, length_made start calls, ?_, ?_, ?_, ?_, ?_⟩
  · rw [ticks_run, hzero, Nat.zero_add]
  · intro i ticked hmade diagnostic h
    rw [tick_of_made start calls hmade h, hzero, Nat.zero_add]
  · intro status
    rw [last_run, hnone]
    cases made.getLast? with
    | none => simp
    | some ticked => cases h : ticked.2.outcome <;> simp [h, Except.toOption]
  · exact fun name kept h => ⟨sinks_run start calls h, pairwise_reportedTo start calls name⟩
  · exact fun κ' _ sinks' calls' h => same_of_requests_eq start calls _ calls' rfl rfl h
  · exact fun name tree state sink => tree.tickReporting_eq (agent name) state sink

/-- The tick between two that absorb a failure is against an agent that cannot shoot. -/
theorem run_counts_and_remembers_jammed :
    ∃ (agent : Bool → Agent Nat) (root : Node) (calls : List (TickCall (fun _ : Bool => Nat) Unit)),
      let final := Handle.run agent ⟨.ofRoot root, fun _ => 0, fun _ => .keeping []⟩ calls
      final.tree.ticks.toNat = 3 ∧ final.tree.last = some .failure ∧
        final.sinks () = .keeping [⟨0, "shoot", "jammed"⟩, ⟨2, "shoot", "jammed"⟩] := by
  let jammed : Capability Nat := ⟨fun state _ => (.error ⟨"jammed"⟩, state + 1)⟩
  let agent : Bool → Agent Nat := fun armed => ⟨fun _ _ => if armed then some jammed else none⟩
  let root : Node := .leaf .action ⟨"shoot", .empty, "Shoot"⟩
  let call (armed : Bool) : TickCall (fun _ : Bool => Nat) Unit := ⟨⟨armed, id⟩, ()⟩
  let calls := [call true, call false, call true]
  obtain ⟨hticks, -, -, hlast, hsinks, -⟩ :=
    run_counts_and_remembers agent root (fun _ => 0) (fun _ : Unit => .keeping []) calls
  obtain ⟨hkept, -⟩ := hsinks () [] rfl
  exact ⟨agent, root, calls, hticks, (hlast .failure).2 ⟨_, rfl, rfl⟩, hkept.trans rfl⟩

end Handle

end BehaviorTree
