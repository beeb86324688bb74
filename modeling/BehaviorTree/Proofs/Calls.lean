import BehaviorTree.Tick

/-! # Which items are activated

A way of visiting items is given how to activate one of them, so it can be watched: let every
activation write down which item it was of and which world it found (`Step.noting`). The calls that
are noted are the activations that the visit makes, in order. This module says which ones they are,
and how the outcome, the items and the world that a visit leaves follow from them. -/

namespace BehaviorTree

/-- What comes of an activation. -/
abbrev Outcome := Except TickError Status

/-- An activation of one item among several: its index, the item as it was and the world that it
found. -/
structure Call (ω τ : Type) where
  index : Nat
  item : τ
  world : ω

def Call.step {ω τ : Type} (activate : τ → ω → Step ω τ) (call : Call ω τ) : Step ω τ :=
  activate call.item call.world

def outcomes {ω τ : Type} (activate : τ → ω → Step ω τ) (calls : List (Call ω τ)) : List Outcome :=
  calls.map fun call => (call.step activate).outcome

/-! ## What calls can have to do with one another -/

/-- Each call finds the world that the call before it left, the first one the world `before`, and
the last one leaves the world `after`. -/
def Threaded {ω τ : Type} (activate : τ → ω → Step ω τ) (before : ω) : List (Call ω τ) → ω → Prop
  | [], after => after = before
  | call :: rest, after =>
      call.world = before ∧ Threaded activate (call.step activate).world rest after

/-- The calls are of the first of the items, once each and in order, each in the world that the one
before it left. What they leave takes the place of the items that were called. -/
structure InOrder {ω τ : Type} (activate : τ → ω → Step ω τ) (items : List τ) (before : ω)
    (calls : List (Call ω τ)) (left : List τ) (after : ω) : Prop where
  index : calls.map (·.index) = List.range calls.length
  item : calls.map (·.item) = items.take calls.length
  world : Threaded activate before calls after
  left : left = calls.map (fun call => (call.step activate).state) ++ items.drop calls.length

/-- All calls are of the one item, each as the call before it left it and in the world that it
left. -/
def Repeats {ω τ : Type} (activate : τ → ω → Step ω τ) (item : τ) (before : ω) :
    List (Call ω τ) → τ → ω → Prop
  | [], left, after => left = item ∧ after = before
  | call :: rest, left, after =>
      call.index = 0 ∧ call.item = item ∧ call.world = before ∧
        Repeats activate (call.step activate).state (call.step activate).world rest left after

/-- Of `limit` activations one after the other, these are the outcomes of the shortest prefix that
ends in the first one of which `ends` holds, and of all of them if there is none. -/
structure EndsAtFirst (ends : Outcome → Prop) (limit : Nat) (outcomes : List Outcome) : Prop where
  length_le : outcomes.length ≤ limit
  goesOn : ∀ outcome ∈ outcomes.dropLast, ¬ ends outcome
  ended : outcomes.length < limit → ∃ outcome ∈ outcomes.getLast?, ends outcome

section Relations

variable {ω τ : Type} {activate : τ → ω → Step ω τ} {before after : ω} {calls : List (Call ω τ)}
  {call : Call ω τ}

/-- A call is of the item at its index. -/
theorem InOrder.getElem?_of_mem {items left : List τ}
    (h : InOrder activate items before calls left after) (hcall : call ∈ calls) :
    items[call.index]? = some call.item := by
  obtain ⟨i, hlt, rfl⟩ := List.mem_iff_getElem.1 hcall
  have hindex : calls[i].index = i := by
    have hrange := congrArg (·[i]?) h.index
    simpa [hlt] using hrange
  have hitem : items[i]? = some calls[i].item := by
    have htake := congrArg (·[i]?) h.item
    simpa [hlt, List.getElem?_take] using htake.symm
  rw [hindex, hitem]

/-- What activations keep of all items, the calls keep of what is left. -/
theorem InOrder.forall_mem_left {items left : List τ}
    (h : InOrder activate items before calls left after) {keeps : τ → Prop}
    (hkeeps : ∀ item world, keeps item → keeps (activate item world).state)
    (hitems : ∀ item ∈ items, keeps item) : ∀ item ∈ left, keeps item := by
  intro item hitem
  rw [h.left, List.mem_append, List.mem_map] at hitem
  rcases hitem with ⟨call, hcall, rfl⟩ | hrest
  · have hcalled : call.item ∈ items := List.mem_of_getElem? (h.getElem?_of_mem hcall)
    exact hkeeps call.item call.world (hitems call.item hcalled)
  · exact hitems item (List.mem_of_mem_drop hrest)

/-- What activations keep of an item, all calls of a repetition find. -/
theorem Repeats.of_mem {item left : τ} (h : Repeats activate item before calls left after)
    (keeps : τ → Prop) (hkeeps : ∀ item world, keeps item → keeps (activate item world).state)
    (hitem : keeps item) (hcall : call ∈ calls) : call.index = 0 ∧ keeps call.item := by
  induction calls generalizing item before with
  | nil => exact absurd hcall List.not_mem_nil
  | cons first rest ih =>
      obtain ⟨hindex, hfirst, hworld, hrest⟩ := h
      have hkept : keeps first.item := by rw [hfirst]; exact hitem
      rcases List.mem_cons.1 hcall with rfl | hcall
      · exact ⟨hindex, hkept⟩
      · exact ih hrest (hkeeps first.item first.world hkept) hcall

/-- What activations keep of an item, a repetition keeps of it. -/
theorem Repeats.left_of_item {item left : τ} (h : Repeats activate item before calls left after)
    {keeps : τ → Prop} (hkeeps : ∀ item world, keeps item → keeps (activate item world).state)
    (hitem : keeps item) : keeps left := by
  induction calls generalizing item before with
  | nil =>
      rw [h.1]
      exact hitem
  | cons first rest ih =>
      obtain ⟨-, hfirst, -, hrest⟩ := h
      have hkept : keeps first.item := by rw [hfirst]; exact hitem
      exact ih hrest (hkeeps first.item first.world hkept)

end Relations

namespace EndsAtFirst

variable {ends : Outcome → Prop} {limit : Nat} {outcomes : List Outcome}

theorem congr {ends' : Outcome → Prop} (h : EndsAtFirst ends limit outcomes)
    (hends : ∀ outcome, ends outcome ↔ ends' outcome) : EndsAtFirst ends' limit outcomes := by
  obtain rfl : ends = ends' := funext fun outcome => propext (hends outcome)
  exact h

theorem nil : EndsAtFirst ends 0 [] := ⟨Nat.le_refl 0, by simp, by simp⟩

/-- An outcome that ends it is the only one. -/
theorem singleton {outcome : Outcome} (h : ends outcome) : EndsAtFirst ends (limit + 1) [outcome] :=
  ⟨by simp, by simp, fun _ => ⟨outcome, by simp, h⟩⟩

/-- An outcome that does not end it comes before the others. -/
theorem cons {outcome : Outcome} (h : ¬ ends outcome) (hrest : EndsAtFirst ends limit outcomes) :
    EndsAtFirst ends (limit + 1) (outcome :: outcomes) := by
  refine ⟨Nat.succ_le_succ hrest.length_le, ?_, ?_⟩
  · intro other hother
    cases outcomes with
    | nil => simp at hother
    | cons next others =>
        rw [List.dropLast_cons_cons, List.mem_cons] at hother
        rcases hother with rfl | hother
        · exact h
        · exact hrest.goesOn other hother
  · intro hlength
    have hshort : outcomes.length < limit := Nat.lt_of_succ_lt_succ hlength
    obtain ⟨last, hlast, hends⟩ := hrest.ended hshort
    refine ⟨last, ?_, hends⟩
    rw [List.getLast?_cons, Option.mem_def.1 hlast]
    rfl

/-- If only one outcome goes on, the last outcome is that one exactly when all are, and then nothing
is left out. -/
theorem last_eq_iff {usual : Outcome} (h : EndsAtFirst (· ≠ usual) limit outcomes) :
    outcomes.getLast?.getD usual = usual ↔ outcomes = List.replicate limit usual := by
  constructor
  · intro hlast
    have hall : ∀ outcome ∈ outcomes, outcome = usual := by
      intro outcome hmem
      rcases List.eq_nil_or_concat outcomes with hnil | ⟨init, last, hconcat⟩
      · rw [hnil] at hmem
        exact absurd hmem List.not_mem_nil
      rw [List.concat_eq_append] at hconcat
      subst hconcat
      rcases List.mem_append.1 hmem with hinit | hmem
      · exact Classical.not_not.1 (h.goesOn outcome (by simpa using hinit))
      · simp only [List.getLast?_append, List.getLast?_singleton, Option.some_or,
          Option.getD_some] at hlast
        rw [List.mem_singleton.1 hmem, hlast]
    have hlength : outcomes.length = limit := by
      by_cases hshort : outcomes.length < limit
      · obtain ⟨last, hmem, hends⟩ := h.ended hshort
        exact absurd (hall last (List.mem_of_getLast? hmem)) hends
      · exact Nat.le_antisymm h.length_le (Nat.not_lt.1 hshort)
    exact List.eq_replicate_iff.2 ⟨hlength, hall⟩
  · rintro rfl
    cases limit with
    | zero => rfl
    | succ limit => simp [List.getLast?_replicate]

end EndsAtFirst

namespace Step

variable {ω τ : Type}

/-- Activates a numbered item and notes the call. -/
def noting (activate : τ → ω → Step ω τ) (item : τ × Nat) (world : ω × List (Call ω τ)) :
    Step (ω × List (Call ω τ)) (τ × Nat) :=
  let step := activate item.1 world.1
  ⟨step.outcome, (step.state, item.2), (step.world, world.2 ++ [⟨item.2, item.1, world.1⟩])⟩

/-- The calls that a visit by a policy makes. -/
def callsBy (activate : τ → ω → Step ω τ) (policy : Policy) (items : List τ) (world : ω) :
    List (Call ω τ) :=
  (visitBy (noting activate) policy items.zipIdx (world, [])).world.2

def callsRepeated (activate : τ → ω → Step ω τ) (count : Nat) (item : τ) (world : ω) :
    List (Call ω τ) :=
  (repeated (noting activate) count (item, 0) (world, [])).world.2

/-! ## The calls by recursion -/

/-- The calls of a visit in order, the first item having this index. -/
def visitCalls (activate : τ → ω → Step ω τ) (stop : Option Status) (index : Nat) :
    List τ → ω → List (Call ω τ)
  | [], _ => []
  | item :: rest, world =>
      ⟨index, item, world⟩ ::
        match (activate item world).outcome with
        | .error _ => []
        | .ok status =>
            if stop = some status then []
            else visitCalls activate stop (index + 1) rest (activate item world).world

def repeatedCalls (activate : τ → ω → Step ω τ) : (count : Nat) → τ → ω → List (Call ω τ)
  | 0, _, _ => []
  | count + 1, item, world =>
      ⟨0, item, world⟩ ::
        match (activate item world).outcome with
        | .ok .success =>
            repeatedCalls activate count (activate item world).state (activate item world).world
        | _ => []

variable (activate : τ → ω → Step ω τ)

theorem world_visit_noting (stop : Option Status) (sofar : Status) (index : Nat) (items : List τ)
    (world : ω) (noted : List (Call ω τ)) :
    (visit (noting activate) stop sofar (items.zipIdx index) (world, noted)).world =
      ((visit activate stop sofar items world).world,
        noted ++ visitCalls activate stop index items world) := by
  induction items generalizing sofar index world noted with
  | nil => simp [visit, visitCalls]
  | cons item rest ih =>
      rw [List.zipIdx_cons, visit, visit, visitCalls]
      cases houtcome : (activate item world).outcome with
      | error e => simp [noting, houtcome]
      | ok status =>
          by_cases hstop : stop = some status
          · simp [noting, houtcome, hstop]
          · simp [noting, houtcome, hstop, map, ih]

theorem world_repeated_noting (count : Nat) (item : τ) (world : ω) (noted : List (Call ω τ)) :
    (repeated (noting activate) count (item, 0) (world, noted)).world =
      ((repeated activate count item world).world,
        noted ++ repeatedCalls activate count item world) := by
  induction count generalizing item world noted with
  | zero => simp [repeated, repeatedCalls]
  | succ count ih =>
      rw [repeated, repeated, repeatedCalls]
      cases houtcome : (activate item world).outcome with
      | error e => simp [noting, houtcome]
      | ok status => cases status <;> simp [noting, houtcome, ih]

theorem callsRepeated_eq (count : Nat) (item : τ) (world : ω) :
    callsRepeated activate count item world = repeatedCalls activate count item world := by
  rw [callsRepeated, world_repeated_noting, List.nil_append]

theorem callsBy_sequence (items : List τ) (world : ω) :
    callsBy activate .sequence items world =
      visitCalls activate (some .failure) 0 items world := by
  rw [callsBy, visitBy, map, world_visit_noting, List.nil_append]

theorem callsBy_selector (items : List τ) (world : ω) :
    callsBy activate .selector items world =
      visitCalls activate (some .success) 0 items world := by
  rw [callsBy, visitBy, map, world_visit_noting, List.nil_append]

theorem callsBy_parallel (items : List τ) (world : ω) :
    callsBy activate .parallel items world = visitCalls activate none 0 items world := by
  rw [callsBy, visitBy, map, world_visit_noting, List.nil_append]

theorem callsBy_alternate {cursor : Nat} {items : List τ} {item : τ}
    (hitem : items[cursor]? = some item) (world : ω) :
    callsBy activate (.alternate cursor) items world = [⟨cursor, item, world⟩] := by
  rw [callsBy, visitBy, map, visitAt, List.getElem?_zipIdx, hitem]
  simp [noting, map]

theorem callsBy_alternate_none {cursor : Nat} {items : List τ} (hitem : items[cursor]? = none)
    (world : ω) : callsBy activate (.alternate cursor) items world = [] := by
  rw [callsBy, visitBy, map, visitAt, List.getElem?_zipIdx, hitem]
  rfl

/-! ## The law of a visit -/

/-- An outcome after which a visit that stops at `stop` activates nothing more. -/
def Stops (stop : Option Status) (outcome : Outcome) : Prop :=
  ∀ status, outcome = .ok status → stop = some status

variable {activate} {stop : Option Status} {sofar : Status} {index : Nat} {item : τ}
  {items rest : List τ} {world : ω}

theorem not_stops_iff {outcome : Outcome} :
    ¬ Stops stop outcome ↔ ∃ status, outcome = .ok status ∧ stop ≠ some status := by
  simp [Stops]

theorem visit_cons_of_stops (h : Stops stop (activate item world).outcome) :
    visit activate stop sofar (item :: rest) world =
      ⟨(activate item world).outcome, (activate item world).state :: rest,
        (activate item world).world⟩ := by
  rw [visit]
  cases houtcome : (activate item world).outcome with
  | error e => rfl
  | ok status =>
      dsimp only
      rw [if_pos (h status houtcome)]

theorem visitCalls_cons_of_stops (h : Stops stop (activate item world).outcome) :
    visitCalls activate stop index (item :: rest) world = [⟨index, item, world⟩] := by
  rw [visitCalls]
  cases houtcome : (activate item world).outcome with
  | error e => rfl
  | ok status =>
      dsimp only
      rw [if_pos (h status houtcome)]

theorem visit_cons_of_goes_on {status : Status} (h : (activate item world).outcome = .ok status)
    (hstop : stop ≠ some status) :
    visit activate stop sofar (item :: rest) world =
      (visit activate stop (sofar.or status) rest (activate item world).world).map
        ((activate item world).state :: ·) := by
  rw [visit, h]
  exact if_neg hstop

theorem visitCalls_cons_of_goes_on {status : Status}
    (h : (activate item world).outcome = .ok status) (hstop : stop ≠ some status) :
    visitCalls activate stop index (item :: rest) world =
      ⟨index, item, world⟩ ::
        visitCalls activate stop (index + 1) rest (activate item world).world := by
  rw [visitCalls, h]
  exact congrArg _ (if_neg hstop)

theorem map_index_visitCalls :
    (visitCalls activate stop index items world).map (·.index) =
      List.range' index (visitCalls activate stop index items world).length := by
  induction items generalizing index world with
  | nil => rfl
  | cons item rest ih =>
      by_cases h : Stops stop (activate item world).outcome
      · rw [visitCalls_cons_of_stops h]
        rfl
      · obtain ⟨status, houtcome, hstop⟩ := not_stops_iff.1 h
        rw [visitCalls_cons_of_goes_on houtcome hstop, List.map_cons, ih, List.length_cons,
          List.range'_succ]

theorem map_item_visitCalls :
    (visitCalls activate stop index items world).map (·.item) =
      items.take (visitCalls activate stop index items world).length := by
  induction items generalizing index world with
  | nil => rfl
  | cons item rest ih =>
      by_cases h : Stops stop (activate item world).outcome
      · rw [visitCalls_cons_of_stops h]
        rfl
      · obtain ⟨status, houtcome, hstop⟩ := not_stops_iff.1 h
        rw [visitCalls_cons_of_goes_on houtcome hstop, List.map_cons, ih, List.length_cons,
          List.take_succ_cons]

theorem threaded_visitCalls :
    Threaded activate world (visitCalls activate stop index items world)
      (visit activate stop sofar items world).world := by
  induction items generalizing sofar index world with
  | nil => rfl
  | cons item rest ih =>
      by_cases h : Stops stop (activate item world).outcome
      · rw [visitCalls_cons_of_stops h, visit_cons_of_stops h]
        exact ⟨rfl, rfl⟩
      · obtain ⟨status, houtcome, hstop⟩ := not_stops_iff.1 h
        rw [visitCalls_cons_of_goes_on houtcome hstop, visit_cons_of_goes_on houtcome hstop]
        exact ⟨rfl, ih⟩

theorem state_visit (index : Nat) :
    (visit activate stop sofar items world).state =
      (visitCalls activate stop index items world).map (fun call => (call.step activate).state) ++
        items.drop (visitCalls activate stop index items world).length := by
  induction items generalizing sofar index world with
  | nil => rfl
  | cons item rest ih =>
      by_cases h : Stops stop (activate item world).outcome
      · rw [visitCalls_cons_of_stops h, visit_cons_of_stops h]
        rfl
      · obtain ⟨status, houtcome, hstop⟩ := not_stops_iff.1 h
        rw [visitCalls_cons_of_goes_on houtcome hstop, visit_cons_of_goes_on houtcome hstop, map,
          ih (index + 1)]
        rfl

/-- A visit calls the first items in order. -/
theorem inOrder_visit (sofar : Status) :
    InOrder activate items world (visitCalls activate stop 0 items world)
      (visit activate stop sofar items world).state
      (visit activate stop sofar items world).world where
  index := by rw [map_index_visitCalls, List.range_eq_range']
  item := map_item_visitCalls
  world := threaded_visitCalls
  left := state_visit 0

/-- A visit ends at the first outcome that stops it. -/
theorem endsAtFirst_visitCalls :
    EndsAtFirst (Stops stop) items.length
      (outcomes activate (visitCalls activate stop index items world)) := by
  induction items generalizing index world with
  | nil => exact .nil
  | cons item rest ih =>
      by_cases h : Stops stop (activate item world).outcome
      · rw [visitCalls_cons_of_stops h]
        exact .singleton h
      · obtain ⟨status, houtcome, hstop⟩ := not_stops_iff.1 h
        rw [visitCalls_cons_of_goes_on houtcome hstop]
        exact .cons h ih

/-- If a visit goes on at one status only, and starts from it, its outcome is the last one. -/
theorem outcome_visit_eq_last (index : Nat) (h : ∀ status, stop ≠ some status → status = sofar) :
    (visit activate stop sofar items world).outcome =
      (outcomes activate (visitCalls activate stop index items world)).getLast?.getD
        (.ok sofar) := by
  induction items generalizing index world with
  | nil => rfl
  | cons item rest ih =>
      by_cases hstops : Stops stop (activate item world).outcome
      · rw [visitCalls_cons_of_stops hstops, visit_cons_of_stops hstops]
        rfl
      · obtain ⟨status, houtcome, hstop⟩ := not_stops_iff.1 hstops
        obtain rfl : status = sofar := h status hstop
        have hor : status.or status = status := by cases status <;> rfl
        rw [visitCalls_cons_of_goes_on houtcome hstop, visit_cons_of_goes_on houtcome hstop, hor,
          map, ih (index + 1), outcomes, outcomes, List.map_cons, List.getLast?_cons,
          Call.step, houtcome]
        rfl

/-- A visit that stops at no status fails to have one exactly where a call does. -/
theorem outcome_visit_none_eq_error_iff (index : Nat) {e : TickError} :
    (visit activate none sofar items world).outcome = .error e ↔
      (outcomes activate (visitCalls activate none index items world)).getLast? =
        some (.error e) := by
  induction items generalizing sofar index world with
  | nil => simp [visit, visitCalls, outcomes]
  | cons item rest ih =>
      cases houtcome : (activate item world).outcome with
      | error e' =>
          have hstops : Stops none (activate item world).outcome := by simp [Stops, houtcome]
          rw [visitCalls_cons_of_stops hstops, visit_cons_of_stops hstops]
          simp [outcomes, Call.step]
      | ok status =>
          have hstop : none ≠ some status := (Option.some_ne_none status).symm
          rw [visitCalls_cons_of_goes_on houtcome hstop, visit_cons_of_goes_on houtcome hstop, map,
            ih (index + 1), outcomes, outcomes, List.map_cons, List.getLast?_cons,
            Call.step, houtcome]
          cases (List.map (fun call => (Call.step activate call).outcome)
            (visitCalls activate none (index + 1) rest (activate item world).world)).getLast? <;>
            simp

/-- A visit that stops at no status succeeds exactly when some call does and none fails to have a
status. -/
theorem outcome_visit_none_eq_success_iff (index : Nat) :
    (visit activate none sofar items world).outcome = .ok .success ↔
      (sofar = .success ∨
        .ok .success ∈ outcomes activate (visitCalls activate none index items world)) ∧
      ∀ e, .error e ∉ outcomes activate (visitCalls activate none index items world) := by
  induction items generalizing sofar index world with
  | nil => simp [visit, visitCalls, outcomes]
  | cons item rest ih =>
      cases houtcome : (activate item world).outcome with
      | error e =>
          have hstops : Stops none (activate item world).outcome := by simp [Stops, houtcome]
          rw [visitCalls_cons_of_stops hstops, visit_cons_of_stops hstops]
          simp [outcomes, Call.step, houtcome]
      | ok status =>
          have hstop : none ≠ some status := (Option.some_ne_none status).symm
          rw [visitCalls_cons_of_goes_on houtcome hstop, visit_cons_of_goes_on houtcome hstop, map,
            ih (index + 1), outcomes, outcomes, List.map_cons, Call.step, houtcome]
          cases sofar <;> cases status <;> simp [Status.or]

/-! ## The law of a repetition -/

variable {count : Nat}

theorem repeated_succ_of_success (h : (activate item world).outcome = .ok .success) :
    repeated activate (count + 1) item world =
      repeated activate count (activate item world).state (activate item world).world := by
  rw [repeated, h]

theorem repeatedCalls_succ_of_success (h : (activate item world).outcome = .ok .success) :
    repeatedCalls activate (count + 1) item world =
      ⟨0, item, world⟩ ::
        repeatedCalls activate count (activate item world).state (activate item world).world := by
  rw [repeatedCalls, h]

theorem repeated_succ_of_not_success (h : (activate item world).outcome ≠ .ok .success) :
    repeated activate (count + 1) item world = activate item world := by
  rw [repeated]
  split
  · rename_i houtcome
    exact absurd houtcome h
  · rfl

theorem repeatedCalls_succ_of_not_success (h : (activate item world).outcome ≠ .ok .success) :
    repeatedCalls activate (count + 1) item world = [⟨0, item, world⟩] := by
  rw [repeatedCalls]
  split
  · rename_i houtcome
    exact absurd houtcome h
  · rfl

/-- A repetition calls its item as the call before left it. -/
theorem repeats_repeatedCalls :
    Repeats activate item world (repeatedCalls activate count item world)
      (repeated activate count item world).state
      (repeated activate count item world).world := by
  induction count generalizing item world with
  | zero => exact ⟨rfl, rfl⟩
  | succ count ih =>
      by_cases h : (activate item world).outcome = .ok .success
      · rw [repeatedCalls_succ_of_success h, repeated_succ_of_success h]
        exact ⟨rfl, rfl, rfl, ih⟩
      · rw [repeatedCalls_succ_of_not_success h, repeated_succ_of_not_success h]
        exact ⟨rfl, rfl, rfl, rfl, rfl⟩

/-- A repetition ends at the first outcome that is not success. -/
theorem endsAtFirst_repeatedCalls :
    EndsAtFirst (· ≠ .ok .success) count
      (outcomes activate (repeatedCalls activate count item world)) := by
  induction count generalizing item world with
  | zero => exact .nil
  | succ count ih =>
      by_cases h : (activate item world).outcome = .ok .success
      · rw [repeatedCalls_succ_of_success h]
        exact .cons (not_not_intro h) ih
      · rw [repeatedCalls_succ_of_not_success h]
        exact .singleton h

/-- The outcome of a repetition is the last one. -/
theorem outcome_repeated_eq_last :
    (repeated activate count item world).outcome =
      (outcomes activate (repeatedCalls activate count item world)).getLast?.getD
        (.ok .success) := by
  induction count generalizing item world with
  | zero => rfl
  | succ count ih =>
      by_cases h : (activate item world).outcome = .ok .success
      · rw [repeatedCalls_succ_of_success h, repeated_succ_of_success h, ih, outcomes, outcomes,
          List.map_cons, List.getLast?_cons, Call.step, h]
        rfl
      · rw [repeatedCalls_succ_of_not_success h, repeated_succ_of_not_success h]
        rfl

end Step

end BehaviorTree
