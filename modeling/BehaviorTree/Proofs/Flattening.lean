import BehaviorTree.Proofs.Equivalence

/-! # Composites within composites of the same kind

A sequence within a sequence, a selector within a selector and a parallel within a parallel can be
taken apart: their children do the same as children of the outer node (`Node.simulates_flattens`).
A visit goes through two lists one after the other, and the status that it starts from is neutral,
so it makes no difference that the inner node starts anew. Where the inner node stops, be it with an
error, the outer one stops too. -/

namespace BehaviorTree

/-! ## Visits of several lists -/

namespace Step

variable {ω τ : Type} {activate : τ → ω → Step ω τ} {stop : Option Status} {sofar : Status}
  {items rest : List τ} {world : ω}

/-- What two statuses come to stops a visit only if one of them does. -/
theorem ne_or {status : Status} (hsofar : stop ≠ some sofar) (hstop : stop ≠ some status) :
    stop ≠ some (sofar.or status) := by
  cases sofar <;> cases status <;> assumption

/-- A visit that stops among the first items leaves the others as they are. A visit that does not
start from the status that it stops at does not end with it either, unless it stops. -/
theorem visit_append_of_stops (hsofar : stop ≠ some sofar)
    (h : Stops stop (visit activate stop sofar items world).outcome) :
    visit activate stop sofar (items ++ rest) world =
      (visit activate stop sofar items world).map (· ++ rest) := by
  induction items generalizing sofar world with
  | nil => exact absurd (h sofar rfl) hsofar
  | cons item others ih =>
      by_cases hitem : Stops stop (activate item world).outcome
      · rw [List.cons_append, visit_cons_of_stops hitem, visit_cons_of_stops hitem]
        rfl
      · obtain ⟨status, houtcome, hstop⟩ := not_stops_iff.1 hitem
        rw [visit_cons_of_goes_on houtcome hstop] at h
        have hnext := ne_or hsofar hstop
        rw [List.cons_append, visit_cons_of_goes_on houtcome hstop,
          visit_cons_of_goes_on houtcome hstop, ih hnext h]
        rfl

/-- A visit that does not stop among the first items goes on with the others. -/
theorem visit_append_of_goes_on {status : Status} (hstop : stop ≠ some status)
    (h : (visit activate stop sofar items world).outcome = .ok status) :
    visit activate stop sofar (items ++ rest) world =
      (visit activate stop status rest (visit activate stop sofar items world).world).map
        ((visit activate stop sofar items world).state ++ ·) := by
  induction items generalizing sofar world with
  | nil =>
      cases h
      rfl
  | cons item others ih =>
      by_cases hitem : Stops stop (activate item world).outcome
      · rw [visit_cons_of_stops hitem] at h
        exact absurd (hitem status h) hstop
      · obtain ⟨first, houtcome, hfirst⟩ := not_stops_iff.1 hitem
        rw [visit_cons_of_goes_on houtcome hfirst] at h
        rw [List.cons_append, visit_cons_of_goes_on houtcome hfirst,
          visit_cons_of_goes_on houtcome hfirst, ih h]
        rfl

/-- What a visit comes to that goes on from an earlier status, if it comes to this outcome by
itself. -/
def resumed (stop : Option Status) (earlier : Status) (outcome : Outcome) : Outcome :=
  match outcome with
  | .error e => .error e
  | .ok status => if stop = some status then .ok status else .ok (earlier.or status)

theorem resumed_of_stops {outcome : Outcome} (h : Stops stop outcome) (earlier : Status) :
    resumed stop earlier outcome = outcome := by
  cases outcome with
  | error e => rfl
  | ok status => exact if_pos (h status rfl)

/-- An earlier status has a part in the outcome only. -/
theorem visit_or (activate : τ → ω → Step ω τ) (items : List τ) (world : ω) (earlier : Status)
    (hsofar : stop ≠ some sofar) :
    visit activate stop (earlier.or sofar) items world =
      let step := visit activate stop sofar items world
      ⟨resumed stop earlier step.outcome, step.state, step.world⟩ := by
  induction items generalizing sofar world with
  | nil => simp [visit, resumed, hsofar]
  | cons item others ih =>
      by_cases hitem : Stops stop (activate item world).outcome
      · rw [visit_cons_of_stops hitem, visit_cons_of_stops hitem]
        dsimp only
        rw [resumed_of_stops hitem]
      · obtain ⟨status, houtcome, hstop⟩ := not_stops_iff.1 hitem
        have hnext := ne_or hsofar hstop
        have hassoc : (earlier.or sofar).or status = earlier.or (sofar.or status) := by
          cases earlier <;> cases sofar <;> cases status <;> rfl
        rw [visit_cons_of_goes_on houtcome hstop, visit_cons_of_goes_on houtcome hstop, hassoc,
          ih _ hnext]
        rfl

theorem length_visit (activate : τ → ω → Step ω τ) (stop : Option Status) (sofar : Status)
    (items : List τ) (world : ω) :
    (visit activate stop sofar items world).state.length = items.length := by
  have hmap := map_visit (f := activate) (g := fun _ => ()) (fun _ _ => rfl) stop sofar items world
  simpa using congrArg List.length hmap

/-- The first list begins with an item made of others, which the second list has in its place. The
item is made of this many others, and so many come after it. -/
def Opens (wrap : List τ → τ) (inner after : Nat) (nested flat : List τ) : Prop :=
  ∃ ys zs : List τ, ys.length = inner ∧ zs.length = after ∧ nested = wrap ys :: zs ∧
    flat = ys ++ zs

variable {start : Status} {wrap : List τ → τ}

/-- If the activation of an item is a visit of the items that it is made of, it makes no difference
to visit these in its place. -/
theorem agree_visit_wrap (ys zs : List τ) (world : ω) (hstart : stop ≠ some start)
    (hneutral : ∀ status, stop ≠ some status → status.or start = status)
    (hwrap : ∀ items world,
      activate (wrap items) world = (visit activate stop start items world).map wrap)
    (hsofar : stop ≠ some sofar) :
    Step.Agree (Opens wrap ys.length zs.length)
      (visit activate stop sofar (wrap ys :: zs) world)
      (visit activate stop sofar (ys ++ zs) world) := by
  have hitem : (activate (wrap ys) world).outcome =
      (visit activate stop start ys world).outcome := by rw [hwrap, map]
  -- The outer visit goes on from its own status, the inner one has started from a neutral one.
  have hvisit := visit_or activate ys world sofar hstart
  rw [hneutral sofar hsofar] at hvisit
  dsimp only at hvisit
  have hlength := length_visit activate stop start ys world
  by_cases hstops : Stops stop (visit activate stop start ys world).outcome
  · rw [resumed_of_stops hstops] at hvisit
    rw [visit_cons_of_stops (hitem ▸ hstops),
      visit_append_of_stops hsofar (by rw [hvisit]; exact hstops), hvisit, hwrap]
    exact ⟨rfl, rfl, _, zs, hlength, rfl, rfl, rfl⟩
  · obtain ⟨status, houtcome, hstop⟩ := not_stops_iff.1 hstops
    have hresumed : (visit activate stop sofar ys world).outcome = .ok (sofar.or status) := by
      rw [hvisit]
      simp [resumed, houtcome, hstop]
    have hnext := ne_or hsofar hstop
    rw [visit_cons_of_goes_on (hitem.trans houtcome) hstop,
      visit_append_of_goes_on hnext hresumed, hvisit, hwrap]
    exact ⟨rfl, rfl, _, _, hlength, length_visit _ _ _ zs _, rfl, rfl⟩

end Step

/-! ## Policies that visit all children in order -/

/-- A policy visits the children in order until one has the status `stop`, starting from a status
that is neutral among those that do not stop it. -/
structure Policy.Visits (policy : Policy) (stop : Option Status) (start : Status) : Prop where
  visitBy : ∀ {ω τ : Type} (activate : τ → ω → Step ω τ) (items : List τ) (world : ω),
    Step.visitBy activate policy items world =
      (Step.visit activate stop start items world).map (policy, ·)
  goesOn : stop ≠ some start
  neutral : ∀ status, stop ≠ some status → status.or start = status

theorem Policy.exists_visits {policy : Policy} (h : policy ∈ [.sequence, .selector, .parallel]) :
    ∃ stop start, policy.Visits stop start := by
  simp only [List.mem_cons, List.not_mem_nil, or_false] at h
  rcases h with rfl | rfl | rfl
  · refine ⟨some .failure, .success, fun _ _ _ => rfl, by decide, ?_⟩
    rintro (_ | _) h
    · rfl
    · exact absurd rfl h
  · refine ⟨some .success, .failure, fun _ _ _ => rfl, by decide, ?_⟩
    rintro (_ | _) h
    · exact absurd rfl h
    · rfl
  · refine ⟨none, .failure, fun _ _ _ => rfl, by decide, ?_⟩
    rintro (_ | _) _ <;> rfl

/-! ## Taking an inner node apart -/

namespace Node

/-- The second tree is the first one with an inner node of the same policy taken apart. There are
this many children before the inner node, in it, and after it. -/
def Flattens (policy : Policy) (before inner after : Nat) (nested flat : Node) : Prop :=
  ∃ xs ys zs : List Node, xs.length = before ∧ ys.length = inner ∧ zs.length = after ∧
    nested = .composite policy (xs ++ [.composite policy ys] ++ zs) ∧
    flat = .composite policy (xs ++ ys ++ zs)

theorem activate_composite_of_visits {ω : Type} (run : LeafRun ω) {policy : Policy}
    {stop : Option Status} {start : Status} (h : policy.Visits stop start) (children : List Node)
    (world : ω) : (Node.composite policy children).activate run world =
      (Step.visit (activate run) stop start children world).map (.composite policy) := by
  rw [activate_composite, h.visitBy]
  rfl

/-- A composite that does not take turns does the same with an inner one of its own policy taken
apart, and afterwards its children are the same again. -/
theorem simulates_flattens {policy : Policy} (hpolicy : policy ∈ [.sequence, .selector, .parallel])
    (before inner after : Nat) : Simulates (Flattens policy before inner after) := by
  obtain ⟨stop, start, hvisits⟩ := Policy.exists_visits hpolicy
  rintro ω run world _ _ ⟨xs, ys, zs, rfl, rfl, rfl, rfl, rfl⟩
  rw [activate_composite_of_visits run hvisits, activate_composite_of_visits run hvisits,
    List.append_assoc, List.append_assoc, List.singleton_append]
  have hlength := Step.length_visit (activate run) stop start xs world
  by_cases hstops : Step.Stops stop (Step.visit (activate run) stop start xs world).outcome
  · rw [Step.visit_append_of_stops hvisits.goesOn hstops,
      Step.visit_append_of_stops hvisits.goesOn hstops]
    exact ⟨rfl, rfl, _, ys, zs, hlength, rfl, rfl, by simp [Step.map], by simp [Step.map]⟩
  · obtain ⟨status, houtcome, hstop⟩ := Step.not_stops_iff.1 hstops
    rw [Step.visit_append_of_goes_on hstop houtcome, Step.visit_append_of_goes_on hstop houtcome]
    obtain ⟨hsame, hworld, ys', zs', hys, hzs, hnested, hflat⟩ :=
      Step.agree_visit_wrap ys zs (Step.visit (activate run) stop start xs world).world
        hvisits.goesOn hvisits.neutral (activate_composite_of_visits run hvisits) hstop
    refine ⟨hsame, hworld, _, ys', zs', hlength, hys, hzs, ?_, ?_⟩
    · simp [Step.map, hnested]
    · simp [Step.map, hflat]

end Node

/-! ## Runs of ticks -/

namespace Handle

variable {α : Type} {σ : α → Type} {κ : Type} [DecidableEq α] [DecidableEq κ]

/-- A sequence within a sequence does the same in every run of ticks as one sequence of all the
children, and so do a selector within a selector and a parallel within a parallel, whatever the
children are and wherever their cursors stand. Each tick comes to the same outcome, the same state
of the agent and the same diagnostics, and leaves the same children before the inner node, in it and
after it. -/
theorem run_of_flattened {policy : Policy} (hpolicy : policy ∈ [.sequence, .selector, .parallel])
    (xs ys zs : List Node) (agent : ∀ name, Agent (σ name)) (agents : ∀ name, σ name)
    (sinks : κ → Sink) (calls : List (TickCall σ κ)) :
    let flattens := Node.Flattens policy xs.length ys.length zs.length
    let nested : Handle σ κ :=
      ⟨.ofRoot (.composite policy (xs ++ [.composite policy ys] ++ zs)), agents, sinks⟩
    let flat : Handle σ κ := ⟨.ofRoot (.composite policy (xs ++ ys ++ zs)), agents, sinks⟩
    List.Forall₂ (AgreeMade flattens) (nested.made agent calls) (flat.made agent calls) ∧
      (nested.run agent calls).Agree flattens (flat.run agent calls) := by
  intro flattens nested flat
  have hsimulates := Node.simulates_flattens hpolicy xs.length ys.length zs.length
  have hstart : nested.Agree flattens flat :=
    ⟨⟨⟨xs, ys, zs, rfl, rfl, rfl, rfl, rfl⟩, rfl, rfl⟩, rfl, rfl⟩
  exact ⟨agree_made hsimulates hstart calls, agree_run hsimulates hstart calls⟩

/-- A parallel within a parallel. The second tick is aborted within the inner one, at the child
whose turn it is then, and after a failure has been absorbed. -/
theorem run_of_flattened_aborted_inside :
    let leaf (role : Role) (name : String) : Node := .leaf role ⟨name, .empty, name⟩
    let turns : Node := .composite (.alternate 0) [leaf .action "open", leaf .condition "ready"]
    let inner := [turns, leaf .action "close"]
    let sinks : Unit → Sink := fun _ => .keeping []
    ∃ (agent : Unit → Agent Nat) (calls : List (TickCall (fun _ : Unit => Nat) Unit)),
      let flattens := Node.Flattens .parallel 1 2 1
      let nested : Handle (fun _ : Unit => Nat) Unit := ⟨.ofRoot (.composite .parallel
        ([leaf .action "shoot"] ++ [.composite .parallel inner] ++ [leaf .action "wait"])),
        fun _ => 0, sinks⟩
      let flat : Handle (fun _ : Unit => Nat) Unit := ⟨.ofRoot (.composite .parallel
        ([leaf .action "shoot"] ++ inner ++ [leaf .action "wait"])), fun _ => 0, sinks⟩
      (nested.made agent calls).map (·.2.outcome) =
          [.ok .success, .error (.missingCapability "ready" "ready")] ∧
        List.Forall₂ (AgreeMade flattens) (nested.made agent calls) (flat.made agent calls) ∧
        (nested.run agent calls).Agree flattens (flat.run agent calls) := by
  intro leaf turns inner sinks
  let agent : Unit → Agent Nat := fun _ => ⟨fun _ name =>
    if name = "ready" then none
    else some ⟨fun state _ =>
      (if name = "shoot" then .error ⟨"jammed"⟩ else .ok true, state + 1)⟩⟩
  let calls : List (TickCall (fun _ : Unit => Nat) Unit) := [⟨⟨(), id⟩, ()⟩, ⟨⟨(), id⟩, ()⟩]
  have hpolicy : Policy.parallel ∈ [.sequence, .selector, .parallel] := by decide
  have hsame := run_of_flattened hpolicy [leaf .action "shoot"] inner [leaf .action "wait"] agent
    (fun _ => 0) sinks calls
  exact ⟨agent, calls, by decide +kernel, hsame⟩

end Handle

end BehaviorTree
