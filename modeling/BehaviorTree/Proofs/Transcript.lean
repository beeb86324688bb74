import BehaviorTree.Proofs.Asking
import BehaviorTree.Proofs.Completion
import BehaviorTree.Proofs.Handle
import BehaviorTree.Proofs.Tally
import BehaviorTree.Yaml.Formats
import Mathlib.Data.List.Forall2

/-! # What a run prints

A run ticks its tree until it has made all ticks or one is aborted (`Tree.EndsAfter`), and prints a
line for every tick that came to an end (`Program.TickLines`). The labels of the lines are taken
from the tree, which counts its ticks; the entries at the end are taken from the agent, which counts
its invocations. When no tick is aborted every evaluation has found its capability, so the two
agree: the entries add up to the evaluations of all ticks. -/

namespace BehaviorTree

/-! ## Ticks one after the other -/

namespace Tree

variable {σ : Type} (agent : Agent σ)

/-- A tree and its agent after several ticks, whatever comes of them. -/
def after : (n : Nat) → Tree → σ → Tree × σ
  | 0, tree, state => (tree, state)
  | n + 1, tree, state =>
      let ticked := tree.tick agent state
      after n ticked.tree ticked.agent

/-- What comes of the tick with this number, the first one having number 0. -/
def outcomeAt (tree : Tree) (state : σ) (i : Nat) : Except TickError Status :=
  let (tree, state) := after agent i tree state
  (tree.tick agent state).outcome

/-- The evaluations of the tick with this number. -/
def evaluationsAt (tree : Tree) (state : σ) (i : Nat) : List (Evaluation σ) :=
  let (tree, state) := after agent i tree state
  tree.evaluations agent state

/-- The evaluations of several ticks, in order. -/
def evaluationsOf (tree : Tree) (state : σ) (n : Nat) : List (Evaluation σ) :=
  (List.range n).flatMap (tree.evaluationsAt agent state)

/-- Of `n` ticks the first `k` come to an end, and the next one, if there is one, is aborted. -/
structure EndsAfter (tree : Tree) (state : σ) (n k : Nat) : Prop where
  le : k ≤ n
  ended : ∀ i < k, ∃ status, tree.outcomeAt agent state i = .ok status
  aborted : k < n → ∃ e, tree.outcomeAt agent state k = .error e

variable {agent} {tree : Tree} {state : σ} {n k : Nat}

theorem EndsAfter.of_ok {status : Status} (hstatus : (tree.tick agent state).outcome = .ok status)
    (h : EndsAfter agent (tree.tick agent state).tree (tree.tick agent state).agent n k) :
    EndsAfter agent tree state (n + 1) (k + 1) := by
  refine ⟨Nat.succ_le_succ h.le, ?_, ?_⟩
  · intro i hi
    cases i with
    | zero => exact ⟨status, hstatus⟩
    | succ i => exact h.ended i (Nat.lt_of_succ_lt_succ hi)
  · intro hk
    exact h.aborted (Nat.lt_of_succ_lt_succ hk)

theorem EndsAfter.of_error {e : TickError} (h : (tree.tick agent state).outcome = .error e) :
    EndsAfter agent tree state (n + 1) 0 :=
  ⟨Nat.zero_le _, fun i hi => absurd hi (Nat.not_lt_zero i), fun _ => ⟨e, h⟩⟩

/-- With more ticks at least as many come to an end. -/
theorem EndsAfter.le_of_le {m k' : Nat} (h : EndsAfter agent tree state n k)
    (h' : EndsAfter agent tree state m k') (hle : n ≤ m) : k ≤ k' := by
  by_contra hlt
  obtain ⟨e, he⟩ := h'.aborted (by have := h.le; omega)
  obtain ⟨status, hstatus⟩ := h.ended k' (by omega)
  rw [he] at hstatus
  cases hstatus

theorem evaluationsOf_succ (tree : Tree) (state : σ) (n : Nat) :
    tree.evaluationsOf agent state (n + 1) = tree.evaluations agent state ++
      (tree.tick agent state).tree.evaluationsOf agent (tree.tick agent state).agent n := by
  unfold evaluationsOf
  rw [List.range_succ_eq_map, List.flatMap_cons, List.flatMap_map]
  rfl

theorem handedOn_evaluations_tick (tree : Tree) (state : σ) :
    HandedOn Evaluation.state (Evaluation.left agent) state (tree.evaluations agent state)
      (tree.tick agent state).agent := by
  rw [evaluations_eq_dialogue, tick, Node.activate_eq_follow]
  exact Dialogue.handedOn_evaluations tree.root.dialogue state #[]

/-- The evaluations of several ticks find the agent as the ones before left it. -/
theorem handedOn_evaluationsOf (tree : Tree) (state : σ) (n : Nat) :
    HandedOn Evaluation.state (Evaluation.left agent) state (tree.evaluationsOf agent state n)
      (after agent n tree state).2 := by
  induction n generalizing tree state with
  | zero => rfl
  | succ n ih =>
      rw [evaluationsOf_succ]
      exact handedOn_append (handedOn_evaluations_tick tree state) (ih _ _)

/-- In a tick that comes to an end every evaluation finds its capability. -/
theorem answer_ne_missing_of_outcome_eq_ok {status : Status}
    (h : (tree.tick agent state).outcome = .ok status) :
    ∀ evaluation ∈ tree.evaluations agent state, evaluation.answer agent ≠ .missing := by
  intro evaluation hevaluation hmissing
  have herror : evaluation.verdict agent =
      .error (.missingCapability evaluation.leaf.capability evaluation.leaf.path) := by
    rw [Evaluation.verdict, hmissing]
    rfl
  rw [evaluations_eq_dialogue] at hevaluation
  have hne := List.ne_nil_of_mem hevaluation
  -- Only the last evaluation can come to an error, and then the tick does.
  rw [← List.dropLast_append_getLast hne, List.mem_append, List.mem_singleton] at hevaluation
  rcases hevaluation with hearlier | hlast
  · obtain ⟨status, hok⟩ := Dialogue.ok_of_mem_dropLast_evaluations _ _ _ hearlier
    rw [herror] at hok
    cases hok
  · rw [outcome_tick, (Dialogue.outcome_follow_eq_error_iff tree.root.dialogue state #[] _).2
      ⟨evaluation, by rw [hlast]; exact List.getLast?_eq_some_getLast hne, herror⟩] at h
    cases h

theorem answer_ne_missing_of_endsAfter (h : EndsAfter agent tree state n n) :
    ∀ evaluation ∈ tree.evaluationsOf agent state n, evaluation.answer agent ≠ .missing := by
  intro evaluation hevaluation
  obtain ⟨i, hi, hevaluation⟩ := List.mem_flatMap.1 hevaluation
  obtain ⟨status, hstatus⟩ := h.ended i (List.mem_range.1 hi)
  exact answer_ne_missing_of_outcome_eq_ok hstatus evaluation hevaluation

end Tree

namespace Program

/-! ## The lines of the ticks -/

/-- The line of a tick with this outcome, if it came to an end. -/
inductive TickLine (i : Nat) : Except TickError Status → String → Prop where
  | success : TickLine i (.ok .success) ("tick " ++ toString i ++ ": Success\n")
  | failure : TickLine i (.ok .failure) ("tick " ++ toString i ++ ": Failure\n")

/-- The lines of the first `k` ticks, each with its number and the status of the tick. -/
def TickLines (tree : Tree) (state : ScriptedAgent) (k : Nat) (lines : List String) : Prop :=
  List.Forall₂ (fun i line => TickLine i (tree.outcomeAt ScriptedAgent.agent state i) line)
    (List.range k) lines

section TickLines

variable {tree : Tree} {state : ScriptedAgent} {k k' : Nat} {lines lines' : List String}

theorem TickLine.eq {i : Nat} {outcome : Except TickError Status} {line line' : String}
    (h : TickLine i outcome line) (h' : TickLine i outcome line') : line = line' := by
  cases h <;> cases h' <;> rfl

theorem tickLine_tickLine (tick : UInt64) (status : Status) :
    TickLine tick.toNat (.ok status) (tickLine tick status) := by
  have hsuccess : ": " ++ (Status.success.display ++ "\n") = ": Success\n" := by decide
  have hfailure : ": " ++ (Status.failure.display ++ "\n") = ": Failure\n" := by decide
  rw [tickLine, String.append_assoc, String.append_assoc]
  cases status with
  | success => exact hsuccess ▸ .success
  | failure => exact hfailure ▸ .failure

theorem TickLines.eq (h : TickLines tree state k lines) (h' : TickLines tree state k lines') :
    lines = lines' := by
  refine List.right_unique_forall₂' ?_ h h'
  intro i line line' hline hline'
  exact hline.eq hline'

/-- The lines of fewer ticks are the first ones of those of more. -/
theorem TickLines.isPrefix (h : TickLines tree state k lines)
    (h' : TickLines tree state k' lines') (hle : k ≤ k') : lines <+: lines' := by
  have htake : TickLines tree state k (lines'.take k) := by
    have hfirst := List.forall₂_take k h'
    rwa [List.take_range, Nat.min_eq_left hle] at hfirst
  rw [h.eq htake]
  exact List.take_prefix k lines'

end TickLines

theorem runTicks_of_error {n : Nat} {tree : Tree} {state : ScriptedAgent} {e : TickError}
    (h : (tree.tick ScriptedAgent.agent state).outcome = .error e) :
    runTicks (n + 1) tree state = ([], .error (.ofTickError tree.ticks e)) := by
  unfold runTicks
  simp only [h]

theorem runTicks_of_ok {n : Nat} {tree : Tree} {state : ScriptedAgent} {status : Status}
    (h : (tree.tick ScriptedAgent.agent state).outcome = .ok status) :
    runTicks (n + 1) tree state =
      let ticked := tree.tick ScriptedAgent.agent state
      let rest := runTicks n ticked.tree ticked.agent
      (tickLine tree.ticks status :: rest.1, rest.2) := by
  rw [runTicks]
  simp only [h]

/-- What ticking prints and leaves. The number on the first line is that of the ticks before, and
there is room for all numbers. -/
theorem runTicks_eq (n : Nat) (tree : Tree) (state : ScriptedAgent)
    (hfits : tree.ticks.toNat + n ≤ 0xffffffffffffffff) :
    ∃ k, tree.EndsAfter ScriptedAgent.agent state n k ∧
      List.Forall₂ (fun i line =>
          TickLine (tree.ticks.toNat + i) (tree.outcomeAt ScriptedAgent.agent state i) line)
        (List.range k) (runTicks n tree state).1 ∧
      (k = n → (runTicks n tree state).2 = .ok (Tree.after ScriptedAgent.agent n tree state).2) ∧
      (k < n → ∃ e, (runTicks n tree state).2 = .error e) := by
  induction n generalizing tree state with
  | zero =>
      refine ⟨0, ⟨Nat.le_refl 0, ?_, ?_⟩, .nil, fun _ => rfl, ?_⟩
      · exact fun i hi => absurd hi (Nat.not_lt_zero i)
      · exact fun hlt => absurd hlt (Nat.lt_irrefl 0)
      · exact fun hlt => absurd hlt (Nat.lt_irrefl 0)
  | succ n ih =>
      cases houtcome : (tree.tick ScriptedAgent.agent state).outcome with
      | error e =>
          rw [runTicks_of_error houtcome]
          exact ⟨0, .of_error houtcome, .nil, fun hzero => absurd hzero (Nat.succ_ne_zero n).symm,
            fun _ => ⟨_, rfl⟩⟩
      | ok status =>
          -- The tick counts, so the lines of the ticks after it go on with the next number.
          have hnext : (tree.tick ScriptedAgent.agent state).tree.ticks.toNat =
              tree.ticks.toNat + 1 := by
            show (Tree.nextTick tree.ticks).toNat = _
            rw [Tree.toNat_nextTick]
            omega
          obtain ⟨k, hends, hlines, hok, herror⟩ := ih (tree.tick ScriptedAgent.agent state).tree
            (tree.tick ScriptedAgent.agent state).agent (by omega)
          rw [runTicks_of_ok houtcome]
          refine ⟨k + 1, hends.of_ok houtcome, ?_, ?_, ?_⟩
          · rw [List.range_succ_eq_map]
            apply List.Forall₂.cons
            · show TickLine tree.ticks.toNat (tree.tick ScriptedAgent.agent state).outcome _
              rw [houtcome]
              exact tickLine_tickLine tree.ticks status
            · rw [List.forall₂_map_left_iff]
              apply hlines.imp
              intro i line hline
              rwa [hnext, Nat.add_assoc, Nat.add_comm 1 i] at hline
          · exact fun heq => hok (Nat.succ.inj heq)
          · exact fun hlt => herror (Nat.lt_of_succ_lt_succ hlt)

/-! ## Runs -/

/-- What is found in the files of a run: a tree that has not been ticked, and a scripted agent that
has not been invoked. -/
def Loads (formats : Formats) (files : Files) (settings : Option String)
    (treePath agentPath : String) (tree : Tree) (state : ScriptedAgent) : Prop :=
  ∃ config, Config.loadOrDefault formats.settings
      (settings.map fun path => (path, files path)) = .ok config ∧
    loadTree files config treePath = .ok tree ∧ loadAgent formats files agentPath = .ok state

section Loads

variable {formats : Formats} {files : Files} {args : List String} {settings : Option String}
  {treePath agentPath : String} {tree : Tree} {state : ScriptedAgent} {ticks : UInt64}

/-- A tree that loads has been read and compiled, and nothing has been done with it. -/
theorem loadTree_eq_ok_iff {config : Config} : loadTree files config treePath = .ok tree ↔
    ∃ text spec root, (files treePath).text = .ok text ∧ Document.read config text = .ok spec ∧
      spec.compile config = .ok root ∧ tree = .ofRoot root := by
  constructor
  · intro h
    by_cases hread : ∃ text spec, (files treePath).text = .ok text ∧
        Document.read config text = .ok spec
    · obtain ⟨text, spec, htext, hspec⟩ := hread
      rw [loadTree, Tree.load_of_read htext hspec] at h
      cases hcompile : spec.compile config with
      | ok root =>
          rw [hcompile] at h
          exact ⟨text, spec, root, htext, hspec, hcompile, (Except.ok.inj h).symm⟩
      | error e =>
          rw [hcompile] at h
          cases h
    · obtain ⟨-, e, he⟩ : (Tree.load config treePath (files treePath)).1 = [] ∧
          ∃ e, (Tree.load config treePath (files treePath)).2 = .error e :=
        Tree.load_of_not_read hread
      rw [loadTree, he] at h
      cases h
  · rintro ⟨text, spec, root, htext, hspec, hcompile, rfl⟩
    rw [loadTree, Tree.load_of_read htext hspec, hcompile]
    rfl

theorem tallies_of_loadAgent (h : loadAgent formats files agentPath = .ok state) :
    state.Tallies [] := by
  unfold loadAgent at h
  split at h
  · cases h
  · split at h
    · cases h
    · cases h
      exact ScriptedAgent.tallies_ofScript _

theorem run_of_not_loads
    (hread : CommandLine.read args = .ok ⟨settings, .run treePath agentPath ticks⟩)
    (h : ¬ ∃ tree state, Loads formats files settings treePath agentPath tree state) :
    (run formats files args).exitCode = 1 ∧ (run formats files args).output = "" := by
  unfold run answer
  rw [hread]
  dsimp only
  cases hconfig : Config.loadOrDefault formats.settings
      (settings.map fun path => (path, files path)) with
  | error e => exact ⟨rfl, rfl⟩
  | ok config =>
      unfold perform
      dsimp only
      cases htree : loadTree files config treePath with
      | error e => exact ⟨rfl, rfl⟩
      | ok tree =>
          dsimp only
          cases hagent : loadAgent formats files agentPath with
          | error e => exact ⟨rfl, rfl⟩
          | ok state => exact absurd ⟨tree, state, config, hconfig, htree, hagent⟩ h

theorem run_of_loads
    (hread : CommandLine.read args = .ok ⟨settings, .run treePath agentPath ticks⟩)
    (h : Loads formats files settings treePath agentPath tree state) :
    run formats files args =
      let made := runTicks ticks.toNat tree state
      match made.2 with
      | .error e => ⟨1, String.join made.1, e.text⟩
      | .ok final => ⟨0, String.join (made.1 ++
          final.invocations.entries.map fun (name, times) => countLine name times), ""⟩ := by
  obtain ⟨config, hconfig, htree, hagent⟩ := h
  unfold run answer
  rw [hread]
  dsimp only
  rw [hconfig]
  unfold perform
  dsimp only
  rw [htree, hagent]
  dsimp only
  rcases runTicks ticks.toNat tree state with ⟨lines, e | state⟩ <;> rfl

/-- A run with a tree and an agent: the lines that it prints, and how it ends. -/
theorem transcript_of_loads
    (hread : CommandLine.read args = .ok ⟨settings, .run treePath agentPath ticks⟩)
    (h : Loads formats files settings treePath agentPath tree state) :
    ∃ k lines, tree.EndsAfter ScriptedAgent.agent state ticks.toNat k ∧
      TickLines tree state k lines ∧
      (k = ticks.toNat → ∃ final : ScriptedAgent, run formats files args = ⟨0, String.join (lines ++
          final.invocations.entries.map fun (name, times) => countLine name times), ""⟩ ∧
        final.Tallies (ScriptedAgent.invoked
          (tree.evaluationsOf ScriptedAgent.agent state ticks.toNat))) ∧
      (k < ticks.toNat →
        ∃ e : Complaint, run formats files args = ⟨1, String.join lines, e.text⟩) := by
  obtain ⟨config, hconfig, htree, hagent⟩ := id h
  have hzero : tree.ticks.toNat = 0 := by
    obtain ⟨-, -, root, -, -, -, rfl⟩ := loadTree_eq_ok_iff.1 htree
    rfl
  obtain ⟨k, hends, hlines, hok, herror⟩ := runTicks_eq ticks.toNat tree state (by
    have hlt := ticks.toNat_lt
    omega)
  simp only [hzero, Nat.zero_add] at hlines
  rw [run_of_loads hread h]
  dsimp only
  refine ⟨k, (runTicks ticks.toNat tree state).1, hends, hlines, ?_, ?_⟩
  · intro hk
    have htallies := (tallies_of_loadAgent hagent).handedOn
      (Tree.handedOn_evaluationsOf tree state ticks.toNat)
    refine ⟨_, ?_, htallies⟩
    rw [hok hk]
  · intro hk
    obtain ⟨e, he⟩ := herror hk
    refine ⟨e, ?_⟩
    rw [he]

/-- What a run prints, whatever the formats of settings and scripts are. With a tree and a script
that load, the first `k` of its ticks come to an end, and their lines come first. If these are all
ticks, an entry follows for every capability that was invoked, in the order of the names; every
evaluation was an invocation, and the entries add up to them. If the tick after these is aborted,
nothing follows. So a run of more ticks prints the same lines and then some. If something does not
load, nothing is printed. -/
theorem run_prints_ticks_and_counts (formats : Formats) (files : Files)
    (hasks : CommandLine.AsksRun settings treePath agentPath ticks args) :
    ((¬ ∃ tree state, Loads formats files settings treePath agentPath tree state) →
        (run formats files args).exitCode = 1 ∧ (run formats files args).output = "") ∧
      ∀ tree state, Loads formats files settings treePath agentPath tree state →
        ∃ k lines, tree.EndsAfter ScriptedAgent.agent state ticks.toNat k ∧
          TickLines tree state k lines ∧
          (k = ticks.toNat →
            let evaluations := tree.evaluationsOf ScriptedAgent.agent state ticks.toNat
            ∃ counts : List (String × Nat),
              run formats files args = ⟨0, String.join (lines ++ counts.map fun (name, times) =>
                name ++ ": " ++ toString times ++ " invocation(s)\n"), ""⟩ ∧
              (counts.map (·.1)).Pairwise (· < ·) ∧
              (∀ name times, (name, times) ∈ counts ↔
                0 < times ∧ times = (evaluations.map (·.leaf.capability)).count name) ∧
              (counts.map (·.2)).sum = evaluations.length ∧
              ∀ evaluation ∈ evaluations, evaluation.answer ScriptedAgent.agent ≠ .missing) ∧
          (k < ticks.toNat →
            (run formats files args).exitCode = 1 ∧
              (run formats files args).output = String.join lines) ∧
          ∀ args' ticks', ticks ≤ ticks' →
            CommandLine.AsksRun settings treePath agentPath ticks' args' →
              ∃ k' lines' rest, tree.EndsAfter ScriptedAgent.agent state ticks'.toNat k' ∧
                TickLines tree state k' lines' ∧ lines <+: lines' ∧
                (run formats files args').output = String.join (lines' ++ rest) := by
  have hread := CommandLine.read_run hasks
  refine ⟨run_of_not_loads hread, ?_⟩
  intro tree state hloads
  obtain ⟨k, lines, hends, hlines, hall, haborted⟩ := transcript_of_loads hread hloads
  refine ⟨k, lines, hends, hlines, ?_, ?_, ?_⟩
  · intro hk evaluations
    subst hk
    obtain ⟨final, hrun, htallies⟩ := hall rfl
    have hfound := Tree.answer_ne_missing_of_endsAfter hends
    rw [ScriptedAgent.invoked_of_ne_missing hfound] at htallies
    refine ⟨final.invocations.entries, hrun, final.invocations.increasing_names, ?_, ?_, hfound⟩
    · exact fun name times => htallies.mem_entries_iff
    · rw [htallies.sum_counts, List.length_map]
  · intro hk
    obtain ⟨e, hrun⟩ := haborted hk
    rw [hrun]
    exact ⟨rfl, rfl⟩
  · intro args' ticks' hle hasks'
    have hread' := CommandLine.read_run hasks'
    obtain ⟨k', lines', hends', hlines', hall', haborted'⟩ := transcript_of_loads hread' hloads
    have hprefix := hlines.isPrefix hlines' (hends.le_of_le hends' (UInt64.le_iff_toNat_le.1 hle))
    rcases Nat.eq_or_lt_of_le hends'.le with hk | hk
    · obtain ⟨final, hrun, -⟩ := hall' hk
      exact ⟨k', lines', _, hends', hlines', hprefix, by rw [hrun]⟩
    · obtain ⟨e, hrun⟩ := haborted' hk
      exact ⟨k', lines', [], hends', hlines', hprefix, by rw [hrun, List.append_nil]⟩

/-- A condition that holds in the first of two ticks only. -/
theorem run_prints_ticks_and_counts_scan :
    ∃ (files : Files) (tree : Tree) (state : ScriptedAgent) (lines : List String),
      CommandLine.AsksRun none "tree" "script" 2
          ["run", "-a", "script", "tree", "--ticks", "2"] ∧
        Loads .yaml files none "tree" "script" tree state ∧
        tree.EndsAfter ScriptedAgent.agent state 2 2 ∧ TickLines tree state 2 lines ∧
        run .yaml files ["run", "-a", "script", "tree", "--ticks", "2"] =
          ⟨0, "tick 0: Success\ntick 1: Failure\nscan: 2 invocation(s)\n", ""⟩ := by
  let files : Files := fun path => .ofText (if path = "tree" then
    "<a><b><c Class=\"BT.Conditions.scan\"/></b></a>"
    else "capabilities: \x7bscan: [true, false]\x7d")
  have hrun : run .yaml files ["run", "-a", "script", "tree", "--ticks", "2"] =
      ⟨0, "tick 0: Success\ntick 1: Failure\nscan: 2 invocation(s)\n", ""⟩ := by decide +kernel
  have hasks : CommandLine.AsksRun none "tree" "script" 2
      ["run", "-a", "script", "tree", "--ticks", "2"] :=
    .settingsAfter (.ticks (.tree (.script .nothing (.short (by decide))) (by decide))
      (.apart (by decide)))
  obtain ⟨hnone, hloads⟩ := run_prints_ticks_and_counts .yaml files hasks
  -- A run that ends well has loaded everything, and has made all its ticks.
  obtain ⟨tree, state, h⟩ : ∃ tree state, Loads .yaml files none "tree" "script" tree state := by
    by_contra h
    have hfailed := (hnone h).1
    rw [hrun] at hfailed
    exact absurd hfailed (by decide)
  obtain ⟨k, lines, hends, hlines, -, haborted, -⟩ := hloads tree state h
  obtain rfl : k = 2 := by
    by_contra hk
    have hfailed := (haborted (Nat.lt_of_le_of_ne hends.le hk)).1
    rw [hrun] at hfailed
    exact absurd hfailed (by decide)
  exact ⟨files, tree, state, lines, hasks, h, hends, hlines, hrun⟩

end Loads

end Program

end BehaviorTree
