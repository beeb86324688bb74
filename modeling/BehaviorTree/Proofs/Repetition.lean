import BehaviorTree.Proofs.Equivalence

/-! # Counting repetitions

A repetition hands its item on from one activation to the next and ends at the first that does not
succeed. So to repeat an item as often as two counts say is to repeat it as often as the first says
and then, if that succeeds, as often as the second (`Step.repeated_add_of_success`), and to repeat a
repetition is to repeat as often as the product says (`Step.repeated_repeated`). A sequence of
copies does not hand anything on: it does the same as a repetition only if an activation gives the
item back as it was (`Step.visit_replicate`). -/

namespace BehaviorTree

namespace Step

variable {ω τ : Type} {activate : τ → ω → Step ω τ} {m n : Nat} {item : τ} {world : ω}

/-- A repetition that succeeds can be followed by another one of what it leaves. -/
theorem repeated_add_of_success (h : (repeated activate m item world).outcome = .ok .success) :
    repeated activate (m + n) item world =
      repeated activate n (repeated activate m item world).state
        (repeated activate m item world).world := by
  induction m generalizing item world with
  | zero => rw [Nat.zero_add, repeated]
  | succ m ih =>
      by_cases hfirst : (activate item world).outcome = .ok .success
      · rw [repeated_succ_of_success hfirst] at h
        rw [Nat.succ_add, repeated_succ_of_success hfirst, repeated_succ_of_success hfirst, ih h]
      · rw [repeated_succ_of_not_success hfirst] at h
        exact absurd h hfirst

/-- A repetition that does not succeed is not gone on with. -/
theorem repeated_add_of_not_success (h : (repeated activate m item world).outcome ≠ .ok .success) :
    repeated activate (m + n) item world = repeated activate m item world := by
  induction m generalizing item world with
  | zero => exact absurd rfl h
  | succ m ih =>
      by_cases hfirst : (activate item world).outcome = .ok .success
      · rw [repeated_succ_of_success hfirst] at h
        rw [Nat.succ_add, repeated_succ_of_success hfirst, repeated_succ_of_success hfirst, ih h]
      · rw [Nat.succ_add, repeated_succ_of_not_success hfirst,
          repeated_succ_of_not_success hfirst]

/-- A repetition of repetitions repeats as often as the product of the counts says. -/
theorem repeated_repeated :
    repeated (repeated activate n) m item world = repeated activate (m * n) item world := by
  induction m generalizing item world with
  | zero => rw [Nat.zero_mul, repeated, repeated]
  | succ m ih =>
      have hcount : (m + 1) * n = n + m * n := by rw [Nat.succ_mul, Nat.add_comm]
      rw [hcount]
      by_cases hfirst : (repeated activate n item world).outcome = .ok .success
      · rw [repeated_succ_of_success hfirst, repeated_add_of_success hfirst, ih]
      · rw [repeated_succ_of_not_success hfirst, repeated_add_of_not_success hfirst]

/-- What is put into something larger before each activation and taken out after it can be put in
once and for all. -/
theorem repeated_map {υ : Type} {activate' : υ → ω → Step ω υ} {put : τ → υ}
    (h : ∀ item world, activate' (put item) world = (activate item world).map put) :
    repeated activate' m (put item) world = (repeated activate m item world).map put := by
  induction m generalizing item world with
  | zero => rfl
  | succ m ih =>
      have houtcome : (activate' (put item) world).outcome = (activate item world).outcome := by
        rw [h, map]
      by_cases hfirst : (activate item world).outcome = .ok .success
      · rw [repeated_succ_of_success (houtcome.trans hfirst), repeated_succ_of_success hfirst, h,
          ← ih]
        rfl
      · rw [repeated_succ_of_not_success (houtcome ▸ hfirst),
          repeated_succ_of_not_success hfirst, h]

/-- An item that an activation gives back as it was can be repeated by visiting copies of it. -/
theorem visit_replicate (hsame : ∀ world, (activate item world).state = item) :
    visit activate (some .failure) .success (List.replicate m item) world =
      (repeated activate m item world).map fun _ => List.replicate m item := by
  induction m generalizing world with
  | zero => rfl
  | succ m ih =>
      rw [List.replicate_succ]
      by_cases hfirst : (activate item world).outcome = .ok .success
      · have hsofar : Status.success.or .success = .success := rfl
        rw [visit_cons_of_goes_on hfirst (by decide), hsofar, ih, hsame,
          repeated_succ_of_success hfirst, hsame]
        rfl
      · have hstops : Stops (some .failure) (activate item world).outcome := by
          intro status houtcome
          cases status with
          | success => exact absurd houtcome hfirst
          | failure => rfl
        rw [visit_cons_of_stops hstops, repeated_succ_of_not_success hfirst, hsame]
        rfl

end Step

namespace Node

variable {ω : Type} {run : LeafRun ω} {child : Node} {world : ω} {m n : UInt32}

theorem exists_state_activate_loop (run : LeafRun ω) (m : UInt32) (child : Node) (world : ω) :
    ∃ reached, ((Node.loop m child).activate run world).state = .loop m reached := by
  rw [activate_loop]
  exact ⟨_, rfl⟩

section Sum

variable {reached : Node} (h : m.toNat + n.toNat < UInt32.size)
  (hstate : ((Node.loop m child).activate run world).state = .loop m reached)

include h in
theorem activate_loop_add : (Node.loop (m + n) child).activate run world =
    (Step.repeated (activate run) (m.toNat + n.toNat) child world).map (.loop (m + n)) := by
  rw [activate_loop, UInt32.toNat_add, Nat.mod_eq_of_lt h]

include h hstate in
/-- A loop goes on as long as its first turns succeed, with what they leave. -/
theorem agree_loop_add_of_success
    (hsuccess : ((Node.loop m child).activate run world).outcome = .ok .success) :
    Step.Agree (fun a b => ∃ left, a = .loop (m + n) left ∧ b = .loop n left)
      ((Node.loop (m + n) child).activate run world)
      ((Node.loop n reached).activate run ((Node.loop m child).activate run world).world) := by
  rw [activate_loop] at hstate hsuccess
  rw [activate_loop_add h, Step.repeated_add_of_success hsuccess, activate_loop, activate_loop,
    ← (Node.loop.inj hstate).2]
  exact ⟨rfl, rfl, _, rfl, rfl⟩

include h hstate in
/-- A loop does no more than its first turns if they do not succeed. -/
theorem agree_loop_add_of_not_success
    (hfailure : ((Node.loop m child).activate run world).outcome ≠ .ok .success) :
    Step.Agree (fun a b => a = .loop (m + n) reached ∧ b = .loop m reached)
      ((Node.loop (m + n) child).activate run world)
      ((Node.loop m child).activate run world) := by
  rw [activate_loop] at hstate hfailure
  rw [activate_loop_add h, Step.repeated_add_of_not_success hfailure, activate_loop,
    ← (Node.loop.inj hstate).2]
  exact ⟨rfl, rfl, rfl, rfl⟩

end Sum

/-- A loop over a loop, and one loop over the same child. -/
def LoopsOver (m n : UInt32) (nested single : Node) : Prop :=
  ∃ child, nested = .loop m (.loop n child) ∧ single = .loop (m * n) child

/-- A loop over a child without cursors, and a sequence of as many copies of it. -/
def LoopsLike (m : UInt32) (loop sequence : Node) : Prop :=
  ∃ child, child.HasNoCursor ∧ loop = .loop m child ∧
    sequence = .composite .sequence (List.replicate m.toNat child)

/-- A loop over a loop does the same as one loop that counts up to the product, if there is such a
count. -/
theorem simulates_loopsOver (h : m.toNat * n.toNat < UInt32.size) : Simulates (LoopsOver m n) := by
  rintro ω run world _ _ ⟨child, rfl, rfl⟩
  have hcount : (m * n).toNat = m.toNat * n.toNat := by
    rw [UInt32.toNat_mul]
    exact Nat.mod_eq_of_lt h
  rw [activate_loop, activate_loop, hcount, ← Step.repeated_repeated,
    Step.repeated_map (activate_loop run n)]
  exact ⟨rfl, rfl, _, rfl, rfl⟩

/-- Without cursors a loop does the same as a sequence of copies. -/
theorem simulates_loopsLike : Simulates (LoopsLike m) := by
  rintro ω run world _ _ ⟨child, hnone, rfl, rfl⟩
  have hsame : ∀ world, (child.activate run world).state = child := fun world =>
    hnone.eq_of_fresh_eq (fresh_activate run child world)
  have hleft : (Step.repeated (activate run) m.toNat child world).state = child :=
    hnone.eq_of_fresh_eq (Step.repeated_state (fresh_activate run) m.toNat child world)
  rw [activate_loop, activate_composite, Step.visitBy, Step.visit_replicate hsame]
  exact ⟨rfl, rfl, child, hnone, congrArg (Node.loop m) hleft, rfl⟩

/-- What the activation of a loop has to do with those of other loops over the same child, whatever
this is and wherever its cursors stand. A loop that counts up to a sum does what one does that
counts up to the first number and then, only if that has succeeded, one that counts up to the
second, over the child and against the agent that the first has left. A loop over a loop does what
one does that counts up to the product. Over a child without cursors, a loop does what a sequence of
as many copies does. -/
theorem loop_arithmetic {σ : Type} (agent : Agent σ) (tick : UInt64) (child : Node)
    (world : World σ) (m n : UInt32) :
    let activate (node : Node) (world : World σ) := node.activate (Leaf.run agent tick) world
    (m.toNat + n.toNat < UInt32.size →
      let first := activate (.loop m child) world
      let whole := activate (.loop (m + n) child) world
      ∃ reached, first.state = .loop m reached ∧
        (first.outcome = .ok .success →
          Step.Agree (fun a b => ∃ left, a = .loop (m + n) left ∧ b = .loop n left) whole
            (activate (.loop n reached) first.world)) ∧
        (first.outcome ≠ .ok .success →
          Step.Agree (fun a b => a = .loop (m + n) reached ∧ b = .loop m reached) whole first)) ∧
    (m.toNat * n.toNat < UInt32.size →
      Step.Agree (LoopsOver m n) (activate (.loop m (.loop n child)) world)
        (activate (.loop (m * n) child) world)) ∧
    (child.HasNoCursor →
      Step.Agree (LoopsLike m) (activate (.loop m child) world)
        (activate (.composite .sequence (List.replicate m.toNat child)) world)) := by
  intro activate
  refine ⟨?_, ?_, ?_⟩
  · intro h first whole
    obtain ⟨reached, hstate⟩ := exists_state_activate_loop (Leaf.run agent tick) m child world
    exact ⟨reached, hstate, agree_loop_add_of_success h hstate,
      agree_loop_add_of_not_success h hstate⟩
  · intro h
    exact simulates_loopsOver h _ (Leaf.run agent tick) world _ _ ⟨child, rfl, rfl⟩
  · intro h
    exact simulates_loopsLike _ (Leaf.run agent tick) world _ _ ⟨child, h, rfl, rfl⟩

/-- An agent of which the fourth thing it is asked for fails. -/
def failsFourth : Agent Nat := ⟨fun _ _ => some ⟨fun state _ => (.ok (state != 3), state + 1)⟩⟩

/-- Two leaves that take turns. -/
def openAndClose : Node :=
  .composite (.alternate 0)
    [.leaf .action ⟨"open", .empty, "Open"⟩, .leaf .action ⟨"close", .empty, "Close"⟩]

/-- Three turns succeed, and the fourth does not: of the five of a sum, of the four of a product,
and of as many copies of a leaf. -/
theorem loop_arithmetic_fails_fourth :
    let ready : Node := .leaf .condition ⟨"ready", .empty, "Ready"⟩
    let activate (node : Node) (world : World Nat) := node.activate (Leaf.run failsFourth 7) world
    let first := activate (.loop 3 openAndClose) ⟨0, #[]⟩
    let whole := activate (.loop 5 openAndClose) ⟨0, #[]⟩
    (3 + 2 < UInt32.size ∧ first.outcome = .ok .success ∧ whole.outcome = .ok .failure ∧
      ∃ reached, first.state = .loop 3 reached ∧ reached.cursors = [1] ∧
        Step.Agree (fun a b => ∃ left, a = .loop 5 left ∧ b = .loop 2 left) whole
          (activate (.loop 2 reached) first.world)) ∧
    (2 * 2 < UInt32.size ∧
      Step.Agree (LoopsOver 2 2) (activate (.loop 2 (.loop 2 openAndClose)) ⟨0, #[]⟩)
        (activate (.loop 4 openAndClose) ⟨0, #[]⟩)) ∧
    (ready.HasNoCursor ∧
      Step.Agree (LoopsLike 5) (activate (.loop 5 ready) ⟨0, #[]⟩)
        (activate (.composite .sequence (List.replicate 5 ready)) ⟨0, #[]⟩)) := by
  intro ready activate first whole
  obtain ⟨hsum, -⟩ := loop_arithmetic failsFourth 7 openAndClose ⟨0, #[]⟩ 3 2
  obtain ⟨-, hproduct, -⟩ := loop_arithmetic failsFourth 7 openAndClose ⟨0, #[]⟩ 2 2
  obtain ⟨-, -, hcopies⟩ := loop_arithmetic failsFourth 7 ready ⟨0, #[]⟩ 5 0
  obtain ⟨reached, hstate, hsuccess, -⟩ := hsum (by decide)
  have hcursors : reached.cursors = [1] := by
    have hfound : first.state.cursors = [1] := by decide +kernel
    rwa [show first.state = .loop 3 reached from hstate] at hfound
  have hnone : ready.HasNoCursor := by
    intro position cursor nodes hat
    cases position with
    | nil => simp [ready, at?] at hat
    | cons index rest => simp [ready, children] at hat
  refine ⟨⟨by decide, by decide +kernel, by decide +kernel, reached, hstate, hcursors,
    hsuccess (by decide +kernel)⟩, ⟨by decide, hproduct (by decide)⟩, hnone, hcopies hnone⟩

-- Where there are cursors, each copy has its own, and a loop moves the one that there is.
example :
    let agent : Agent Unit := ⟨fun _ _ => some ⟨fun _ _ => (.ok true, ())⟩⟩
    let leaf (name : String) : Node := .leaf .action ⟨name, .empty, name⟩
    let turns : Node := .composite (.alternate 0) [leaf "open", leaf "close"]
    let left (node : Node) := (node.activate (Leaf.run agent 0) ⟨(), #[]⟩).state.cursors
    left (.loop 2 turns) = [0] ∧ left (.composite .sequence [turns, turns]) = [1, 1] :=
  ⟨by decide +kernel, by decide +kernel⟩

end Node

end BehaviorTree
