import BehaviorTree.Proofs.Tally
import Mathlib.Data.List.Forall2

/-! # Scripted agents in use

Whoever uses an agent looks capabilities up, and may invoke what was looked up at any later time and
in any order. A scripted agent in use keeps its script, so all it looks up is what the script has,
and it counts by name what has been invoked (`ScriptedAgent.Faithful`). A reply therefore depends on
what is written for its name and on its own number among the replies of this name: invocations of
other names do not count (`replies_follow_script`). -/

namespace BehaviorTree

/-! ## Replies -/

namespace CapabilityScript

/-- What is replied to the invocation with this number, the first one having number 0: the failure
if one is written, whatever results are written besides; without results that it succeeds; else the
results in turn. -/
inductive Answers : CapabilityScript → (n : Nat) → Except Failure Bool → Prop where
  | failure {results : List Bool} {message : String} {n : Nat} :
      Answers (.detailed results (some message)) n (.error ⟨message⟩)
  | noResults {written : CapabilityScript} {n : Nat} (empty : written.InTurn []) :
      Answers written n (.ok true)
  | inTurn {written : CapabilityScript} {n : Nat} {results : List Bool} {result : Bool}
      (given : written.InTurn results) (turn : results[n % results.length]? = some result) :
      Answers written n (.ok result)

theorem answers_of_inTurn {written : CapabilityScript} {results : List Bool}
    (h : written.InTurn results) (n : Nat) :
    written.Answers n ((Behavior.mk results none).reply n) := by
  unfold Behavior.reply
  dsimp only
  cases hresult : results[n % results.length]? with
  | some result => exact .inTurn h hresult
  | none =>
      -- A remainder by the length of a list is an index of it, unless the list is empty.
      have hle := List.getElem?_eq_none_iff.1 hresult
      obtain rfl : results = [] := by
        rw [← List.length_eq_zero_iff]
        by_contra hne
        exact absurd (Nat.mod_lt n (Nat.pos_of_ne_zero hne)) (Nat.not_lt.2 hle)
      exact .noResults h

theorem answers_reply (written : CapabilityScript) (n : Nat) :
    written.Answers n ((Behavior.ofScript written).reply n) := by
  cases written with
  | constant result => exact answers_of_inTurn (.constant rfl) n
  | cycle results => exact answers_of_inTurn .cycle n
  | detailed results fail =>
      cases fail with
      | none => exact answers_of_inTurn .detailed n
      | some message => exact .failure

end CapabilityScript

/-! ## Uses of an agent -/

/-- What is done with an agent: a capability is looked up, or one that was looked up before is
invoked, the first one having place 0. -/
inductive Use where
  | lookUp (name : String)
  | invoke (place : Nat) (kwargs : Kwargs)

/-- An agent in use: its state, what has been looked up under which name, and the replies to what
has been invoked. -/
structure InUse (σ : Type) where
  state : σ
  lookedUp : List (String × Option (Capability σ))
  replies : List (String × Except Failure Bool)

namespace InUse

variable {σ : Type}

/-- An agent that has not been used. -/
def ofState (state : σ) : InUse σ := ⟨state, [], []⟩

/-- The agent after one more use. What was not found cannot be invoked. -/
def use (agent : Agent σ) (used : InUse σ) : Use → InUse σ
  | .lookUp name =>
      { used with lookedUp := used.lookedUp ++ [(name, agent.capability? used.state name)] }
  | .invoke place kwargs => match used.lookedUp[place]? with
      | some (name, some capability) =>
          let (reply, state) := capability.invoke used.state kwargs
          ⟨state, used.lookedUp, used.replies ++ [(name, reply)]⟩
      | _ => used

def run (agent : Agent σ) (used : InUse σ) (uses : List Use) : InUse σ :=
  uses.foldl (use agent) used

def invoked (used : InUse σ) : List String := used.replies.map (·.1)

/-- The replies to the invocations of a name, in order. -/
def repliesOf (used : InUse σ) (name : String) : List (Except Failure Bool) :=
  (used.replies.filter (·.1 = name)).map (·.2)

end InUse

/-! ## Uses told by a script -/

namespace Script

/-- What a script has at a place, when `lookedUp` has been looked up: the name there, with what is
written for it. -/
def at? (script : Script) (lookedUp : List String) (place : Nat) :
    Option (String × CapabilityScript) := do
  let name ← lookedUp[place]?
  return (name, ← script.get? name)

/-- The names that uses invoke when a script is replayed, after `lookedUp` has been looked up. -/
def namesInvoked (script : Script) : (lookedUp : List String) → List Use → List String
  | _, [] => []
  | lookedUp, .lookUp name :: rest => script.namesInvoked (lookedUp ++ [name]) rest
  | lookedUp, .invoke place _ :: rest =>
      ((script.at? lookedUp place).map (·.1)).toList ++ script.namesInvoked lookedUp rest

end Script

/-! ## Uses of a scripted agent -/

namespace ScriptedAgent

/-- A scripted agent in use is faithful to its script: it looks up what the script has, counts the
names that it was invoked by, and has replied to each name by number. -/
structure Faithful (script : Script) (used : InUse ScriptedAgent) : Prop where
  behaviors_eq : used.state.behaviors = (ofScript script).behaviors
  lookedUp : ∀ entry ∈ used.lookedUp, entry.2 = agent.capability? (ofScript script) entry.1
  tallies : used.state.Tallies used.invoked
  replies : ∀ name, used.repliesOf name = (script.get? name).elim [] fun written =>
    (List.range (used.invoked.count name)).map (Behavior.ofScript written).reply

theorem capability?_eq_of_behaviors_eq {a b : ScriptedAgent} (h : a.behaviors = b.behaviors)
    (name : String) : agent.capability? a name = agent.capability? b name := by
  simp only [agent, h]

theorem isSome_capability? (script : Script) (name : String) :
    (agent.capability? (ofScript script) name).isSome = script.contains name := by
  cases hwritten : script.get? name <;>
    simp [agent, NameMap.contains, get?_behaviors_ofScript, hwritten]

theorem faithful_ofScript (script : Script) : Faithful script (.ofState (ofScript script)) where
  behaviors_eq := rfl
  lookedUp _ h := absurd h List.not_mem_nil
  tallies := tallies_ofScript script
  replies name := by
    cases script.get? name <;> rfl

section Faithful

variable {script : Script} {used : InUse ScriptedAgent}

/-- What is invoked replies by the number of its name, which is counted; where the script has
nothing at a place, nothing happens. -/
theorem Faithful.use_invoke (h : Faithful script used) (place : Nat) (kwargs : Kwargs) :
    used.use agent (.invoke place kwargs) =
      match script.at? (used.lookedUp.map (·.1)) place with
      | none => used
      | some (name, written) => ⟨used.state.counted name, used.lookedUp, used.replies ++
          [(name, (Behavior.ofScript written).reply (used.state.count name))]⟩ := by
  rw [InUse.use, Script.at?, List.getElem?_map]
  cases hplace : used.lookedUp[place]? with
  | none => rfl
  | some entry =>
      obtain ⟨name, found⟩ := entry
      have hfound : found = agent.capability? (ofScript script) name :=
        h.lookedUp _ (List.mem_of_getElem? hplace)
      have hbehavior := get?_behaviors_ofScript script name
      simp only [Option.map_some, Option.bind_eq_bind, Option.bind_some]
      cases hwritten : script.get? name with
      | none =>
          rw [hwritten, Option.map_none] at hbehavior
          rw [hfound, capability?_eq_none hbehavior]
          rfl
      | some written =>
          rw [hwritten, Option.map_some] at hbehavior
          rw [hfound, capability?_of_get? hbehavior]
          rw [← h.behaviors_eq] at hbehavior
          dsimp only
          rw [invoke_of_get? hbehavior]
          rfl

/-- One more invocation of a name has the next number. -/
theorem Faithful.counted (h : Faithful script used) {name : String} {written : CapabilityScript}
    (hwritten : script.get? name = some written) :
    Faithful script ⟨used.state.counted name, used.lookedUp, used.replies ++
      [(name, (Behavior.ofScript written).reply (used.state.count name))]⟩ := by
  refine ⟨h.behaviors_eq, h.lookedUp, ?_, ?_⟩
  · have htallies : (used.state.counted name).Tallies (used.invoked ++ [name]) :=
      h.tallies.counted
    simpa [InUse.invoked] using htallies
  · intro other
    have hbefore := h.replies other
    unfold InUse.repliesOf InUse.invoked at hbefore ⊢
    rw [List.filter_append, List.map_append, List.map_append, List.count_append, hbefore]
    by_cases hname : name = other
    · subst hname
      have hcount : used.state.count name = (used.replies.map (·.1)).count name :=
        h.tallies.count_eq
      simp [hwritten, List.range_succ, hcount]
    · simp [hname]

/-- A use keeps a scripted agent faithful to its script. -/
theorem Faithful.use (h : Faithful script used) (use : Use) :
    Faithful script (used.use agent use) := by
  cases use with
  | lookUp name =>
      refine ⟨h.behaviors_eq, ?_, h.tallies, h.replies⟩
      intro entry hentry
      rcases List.mem_append.1 hentry with hentry | hentry
      · exact h.lookedUp entry hentry
      · rw [List.mem_singleton.1 hentry]
        exact capability?_eq_of_behaviors_eq h.behaviors_eq name
  | invoke place kwargs =>
      rw [h.use_invoke]
      split
      · exact h
      · rename_i name written hat
        obtain ⟨_, -, hname⟩ := Option.bind_eq_some_iff.1 hat
        obtain ⟨_, hwritten, heq⟩ := Option.bind_eq_some_iff.1 hname
        cases heq
        exact h.counted hwritten

/-- The names invoked are those that the script has at the places invoked. -/
theorem Faithful.invoked_use (h : Faithful script used) (use : Use) (rest : List Use) :
    (used.use agent use).invoked ++
        script.namesInvoked ((used.use agent use).lookedUp.map (·.1)) rest =
      used.invoked ++ script.namesInvoked (used.lookedUp.map (·.1)) (use :: rest) := by
  cases use with
  | lookUp name => simp [InUse.use, InUse.invoked, Script.namesInvoked]
  | invoke place kwargs =>
      rw [h.use_invoke, Script.namesInvoked]
      cases script.at? (used.lookedUp.map (·.1)) place <;> simp [InUse.invoked]

/-- What holds of one use holds of many. -/
theorem Faithful.run (h : Faithful script used) (uses : List Use) :
    Faithful script (used.run agent uses) ∧ (used.run agent uses).invoked =
      used.invoked ++ script.namesInvoked (used.lookedUp.map (·.1)) uses := by
  induction uses generalizing used with
  | nil => exact ⟨h, (List.append_nil _).symm⟩
  | cons use rest ih =>
      obtain ⟨hfaithful, hinvoked⟩ := ih (h.use use)
      refine ⟨hfaithful, ?_⟩
      rw [← h.invoked_use, ← hinvoked]
      rfl

/-- Two agents with one script that have been invoked by the same names have replied the same to
each name and hold the same counts. -/
theorem Faithful.eq_of_perm {other : InUse ScriptedAgent} (h : Faithful script used)
    (hother : Faithful script other) (hperm : other.invoked.Perm used.invoked) :
    (∀ name, other.repliesOf name = used.repliesOf name) ∧
      other.state.invocations = used.state.invocations := by
  constructor
  · intro name
    rw [h.replies, hother.replies, hperm.count_eq]
  · apply NameMap.ext_get?
    intro name
    rw [h.tallies name, hother.tallies name, hperm.count_eq]

end Faithful

/-- A scripted agent, however it is used. It has exactly the capabilities of its script, at all
times. What is invoked is what was looked up, and the replies to a name follow what the script
writes for it, in whichever of the three shapes, by their numbers alone. The counts are there for
the names that have been invoked, in the order of names, and tell how often. So uses that invoke the
same names, in whatever order and with whatever arguments, get the same replies for every name and
leave the same counts. -/
theorem replies_follow_script (script : Script) (uses : List Use) :
    let used := (InUse.ofState (ofScript script)).run agent uses
    let names := script.namesInvoked [] uses
    (∀ name, (agent.capability? used.state name).isSome = script.contains name) ∧
      used.invoked = names ∧
      (∀ name written, script.get? name = some written →
        List.Forall₂ written.Answers (List.range (names.count name)) (used.repliesOf name)) ∧
      (∀ name times, (name, times) ∈ used.state.invocations.entries ↔
        0 < times ∧ times = names.count name) ∧
      used.state.invocations.names.Pairwise (· < ·) ∧
      ∀ uses' : List Use, (script.namesInvoked [] uses').Perm names →
        let used' := (InUse.ofState (ofScript script)).run agent uses'
        (∀ name, used'.repliesOf name = used.repliesOf name) ∧
          used'.state.invocations = used.state.invocations := by
  have hrun : ∀ uses, Faithful script ((InUse.ofState (ofScript script)).run agent uses) ∧
      ((InUse.ofState (ofScript script)).run agent uses).invoked = script.namesInvoked [] uses :=
    fun uses => (faithful_ofScript script).run uses
  intro used names
  obtain ⟨hfaithful, hinvoked⟩ := hrun uses
  refine ⟨?_, hinvoked, ?_, ?_, used.state.invocations.increasing_names, ?_⟩
  · intro name
    rw [capability?_eq_of_behaviors_eq hfaithful.behaviors_eq, isSome_capability?]
  · intro name written hwritten
    rw [hfaithful.replies, hwritten, hinvoked, Option.elim_some, List.forall₂_map_right_iff,
      List.forall₂_same]
    exact fun n _ => written.answers_reply n
  · intro name times
    rw [hfaithful.tallies.mem_entries_iff, hinvoked]
  · intro uses' hperm used'
    obtain ⟨hfaithful', hinvoked'⟩ := hrun uses'
    rw [← hinvoked', ← show used.invoked = names from hinvoked] at hperm
    exact hfaithful.eq_of_perm hfaithful' hperm

/-- Three capabilities in the three shapes, one of which fails although it has results, invoked in
turn and one after the other; the script has nothing for a fourth. -/
theorem replies_follow_script_in_turn :
    ∃ (script : Script) (first second : List Use),
      (script.namesInvoked [] second).Perm (script.namesInvoked [] first) ∧
      script.namesInvoked [] second ≠ script.namesInvoked [] first ∧
      let used := (InUse.ofState (ofScript script)).run agent first
      let used' := (InUse.ofState (ofScript script)).run agent second
      used.repliesOf "scan" = [.ok true, .ok false, .ok true] ∧
        used.repliesOf "shoot" = [.error ⟨"jammed"⟩, .error ⟨"jammed"⟩] ∧
        used.repliesOf "wait" = [.ok false, .ok false] ∧
        (∀ name, used'.repliesOf name = used.repliesOf name) ∧
        used'.state.invocations = used.state.invocations := by
  let script : Script := .ofList [("shoot", .detailed [true] (some "jammed")),
    ("scan", .cycle [true, false]), ("wait", .constant false)]
  let call (place : Nat) : Use := .invoke place .empty
  let looks : List Use := [.lookUp "scan", .lookUp "flee", .lookUp "shoot", .lookUp "wait"]
  let first := looks ++ [call 0, call 2, call 3, call 0, call 1, call 2, call 0, call 3]
  let second := looks ++ [call 3, call 3, call 2, call 2, call 0, call 0, call 0]
  have hperm : (script.namesInvoked [] second).Perm (script.namesInvoked [] first) := by
    decide +kernel
  obtain ⟨-, -, -, -, -, hall⟩ := replies_follow_script script first
  refine ⟨script, first, second, hperm, by decide +kernel, by decide +kernel,
    by decide +kernel, by decide +kernel, hall second hperm⟩

end ScriptedAgent

end BehaviorTree
