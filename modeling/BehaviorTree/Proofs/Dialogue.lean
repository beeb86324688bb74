import BehaviorTree.Tick

/-! # Activations as dialogues

An activation learns nothing of the world but the statuses of the leaves that it runs, so it can be
told without a world: as a dialogue, which says what leaf is run first and, for each status that the
leaf can have, how to go on. Following the dialogue of a node in a world is the same as activating
the node there (`Node.activate_eq_follow`). A dialogue is followed one leaf at a time, so what holds
of all activations, or relates two of them, can be proved one leaf at a time: the inner nodes are
dealt with here, once. -/

namespace BehaviorTree

/-- How an activation goes. It has ended with a status, and `state` is what it leaves; or it runs a
leaf and goes on with its status as `next` says. If the leaf has none, it ends, and `aborted` is
what it leaves. -/
inductive Dialogue (τ : Type) where
  | ended (status : Status) (state : τ)
  | ask (role : Role) (leaf : Leaf) (aborted : τ) (next : Status → Dialogue τ)

namespace Dialogue

variable {ω τ υ : Type}

/-- Runs the leaves that a dialogue asks for. -/
def follow (run : LeafRun ω) : Dialogue τ → ω → Step ω τ
  | .ended status state, world => ⟨.ok status, state, world⟩
  | .ask role leaf aborted next, world =>
      match (run role leaf world).1 with
      | .error e => ⟨.error e, aborted, (run role leaf world).2⟩
      | .ok status => (next status).follow run (run role leaf world).2

/-- Goes on after a dialogue. What it leaves if it is aborted is put into a larger part. -/
def andThen (put : τ → υ) (later : Status → τ → Dialogue υ) : Dialogue τ → Dialogue υ
  | .ended status state => later status state
  | .ask role leaf aborted next =>
      .ask role leaf (put aborted) fun status => (next status).andThen put later

/-- The same dialogue, with what it leaves put into a larger part. -/
def map (put : τ → υ) (dialogue : Dialogue τ) : Dialogue υ :=
  dialogue.andThen put fun status state => .ended status (put state)

section Follow

variable {run : LeafRun ω} {dialogue : Dialogue τ} {world : ω} {put : τ → υ}
  {later : Status → τ → Dialogue υ}

theorem follow_ask_of_error {role : Role} {leaf : Leaf} {aborted : τ} {next : Status → Dialogue τ}
    {e : TickError} (h : (run role leaf world).1 = .error e) :
    (ask role leaf aborted next).follow run world =
      ⟨.error e, aborted, (run role leaf world).2⟩ := by
  rw [follow, h]

theorem follow_ask_of_ok {role : Role} {leaf : Leaf} {aborted : τ} {next : Status → Dialogue τ}
    {status : Status} (h : (run role leaf world).1 = .ok status) :
    (ask role leaf aborted next).follow run world =
      (next status).follow run (run role leaf world).2 := by
  rw [follow, h]

theorem follow_andThen_of_error {e : TickError}
    (h : (dialogue.follow run world).outcome = .error e) :
    (dialogue.andThen put later).follow run world = (dialogue.follow run world).map put := by
  induction dialogue generalizing world with
  | ended status state => cases h
  | ask role leaf aborted next ih =>
      cases hleaf : (run role leaf world).1 with
      | error e' => rw [andThen, follow_ask_of_error hleaf, follow_ask_of_error hleaf, Step.map]
      | ok status =>
          rw [follow_ask_of_ok hleaf] at h
          rw [andThen, follow_ask_of_ok hleaf, follow_ask_of_ok hleaf]
          exact ih status h

theorem follow_andThen_of_ok {status : Status}
    (h : (dialogue.follow run world).outcome = .ok status) :
    (dialogue.andThen put later).follow run world =
      (later status (dialogue.follow run world).state).follow run
        (dialogue.follow run world).world := by
  induction dialogue generalizing world with
  | ended status' state =>
      obtain rfl : status' = status := Except.ok.inj h
      rfl
  | ask role leaf aborted next ih =>
      cases hleaf : (run role leaf world).1 with
      | error e =>
          rw [follow_ask_of_error hleaf] at h
          cases h
      | ok status' =>
          rw [follow_ask_of_ok hleaf] at h
          rw [andThen, follow_ask_of_ok hleaf, follow_ask_of_ok hleaf]
          exact ih status' h

theorem follow_map : (dialogue.map put).follow run world = (dialogue.follow run world).map put := by
  cases h : (dialogue.follow run world).outcome with
  | error e => exact follow_andThen_of_error h
  | ok status =>
      rw [map, follow_andThen_of_ok h, follow, Step.map, h]

end Follow

/-! ## Every way of visiting as a dialogue -/

/-- Visits items in order until one has the status `stop`. -/
def visit (dialogue : τ → Dialogue τ) (stop : Option Status) (sofar : Status) :
    List τ → Dialogue (List τ)
  | [] => .ended sofar []
  | item :: rest => (dialogue item).andThen (· :: rest) fun status state =>
      if stop = some status then .ended status (state :: rest)
      else (visit dialogue stop (sofar.or status) rest).map (state :: ·)

/-- Repeats an item up to `count` times, as long as it succeeds. -/
def repeated (dialogue : τ → Dialogue τ) : (count : Nat) → τ → Dialogue τ
  | 0, item => .ended .success item
  | count + 1, item => (dialogue item).andThen id fun status state =>
      match status with
      | .success => repeated dialogue count state
      | .failure => .ended .failure state

def visitAt (dialogue : τ → Dialogue τ) (index : Nat) (items : List τ) : Dialogue (List τ) :=
  match items[index]? with
  | none => .ended .failure items
  | some item => (dialogue item).map (items.set index ·)

/-- Visits the children of a composite as its policy says. -/
def visitBy (dialogue : τ → Dialogue τ) : Policy → List τ → Dialogue (Policy × List τ)
  | .sequence, items => (visit dialogue (some .failure) .success items).map (.sequence, ·)
  | .selector, items => (visit dialogue (some .success) .failure items).map (.selector, ·)
  | .parallel, items => (visit dialogue none .failure items).map (.parallel, ·)
  | .alternate cursor, items =>
      (visitAt dialogue cursor items).map (.alternate ((cursor + 1) % items.length), ·)

section Visits

variable {run : LeafRun ω} {dialogue : τ → Dialogue τ} {activate : τ → ω → Step ω τ}
  (h : ∀ item world, (dialogue item).follow run world = activate item world)

include h

theorem follow_visit (stop : Option Status) (sofar : Status) (items : List τ) (world : ω) :
    (visit dialogue stop sofar items).follow run world =
      Step.visit activate stop sofar items world := by
  induction items generalizing sofar world with
  | nil => rfl
  | cons item rest ih =>
      rw [visit, Step.visit]
      have hfirst : ((dialogue item).follow run world).outcome = (activate item world).outcome := by
        rw [h]
      cases houtcome : (activate item world).outcome with
      | error e => rw [follow_andThen_of_error (hfirst.trans houtcome), Step.map, h, houtcome]
      | ok status =>
          rw [follow_andThen_of_ok (hfirst.trans houtcome), h]
          by_cases hstop : stop = some status
          · simp only [if_pos hstop]
            rfl
          · simp only [if_neg hstop]
            rw [follow_map, ih]

theorem follow_repeated (count : Nat) (item : τ) (world : ω) :
    (repeated dialogue count item).follow run world =
      Step.repeated activate count item world := by
  induction count generalizing item world with
  | zero => rfl
  | succ count ih =>
      rw [repeated, Step.repeated]
      have hfirst : ((dialogue item).follow run world).outcome = (activate item world).outcome := by
        rw [h]
      cases houtcome : (activate item world).outcome with
      | error e =>
          rw [follow_andThen_of_error (hfirst.trans houtcome), h]
          rfl
      | ok status =>
          rw [follow_andThen_of_ok (hfirst.trans houtcome), h]
          cases status with
          | success => exact ih _ _
          | failure => simp only [follow, ← houtcome]

theorem follow_visitAt (index : Nat) (items : List τ) (world : ω) :
    (visitAt dialogue index items).follow run world = Step.visitAt activate index items world := by
  rw [visitAt, Step.visitAt]
  cases items[index]? with
  | none => rfl
  | some item =>
      dsimp only
      rw [follow_map, h]

theorem follow_visitBy (policy : Policy) (items : List τ) (world : ω) :
    (visitBy dialogue policy items).follow run world =
      Step.visitBy activate policy items world := by
  cases policy with
  | selector => rw [visitBy, Step.visitBy, follow_map, follow_visit h]
  | sequence => rw [visitBy, Step.visitBy, follow_map, follow_visit h]
  | parallel => rw [visitBy, Step.visitBy, follow_map, follow_visit h]
  | alternate cursor => rw [visitBy, Step.visitBy, follow_map, follow_visitAt h]

end Visits

end Dialogue

/-! ## The dialogue of a node -/

namespace Node

variable {ω : Type}

/-- The dialogue of a node of at most `levels` levels. -/
def dialogueWithin : (levels : Nat) → Node → Dialogue Node
  | 0, node => .ended .failure node
  | _ + 1, .leaf role bound => .ask role bound (.leaf role bound) fun status =>
      .ended status (.leaf role bound)
  | levels + 1, .loop count child =>
      (Dialogue.repeated (dialogueWithin levels) count.toNat child).map (.loop count)
  | levels + 1, .composite policy children =>
      (Dialogue.visitBy (dialogueWithin levels) policy children).map
        (fun (policy, children) => .composite policy children)

def dialogue (node : Node) : Dialogue Node := node.dialogueWithin node.height

theorem follow_dialogueWithin (run : LeafRun ω) (levels : Nat) (node : Node) (world : ω) :
    (node.dialogueWithin levels).follow run world = node.activateWithin run levels world := by
  induction levels generalizing node world with
  | zero => rfl
  | succ levels ih =>
      cases node with
      | leaf role bound =>
          rw [dialogueWithin, activateWithin, Dialogue.follow]
          cases (run role bound world).1 with
          | error e => rfl
          | ok status => rfl
      | loop count child =>
          rw [dialogueWithin, activateWithin, Dialogue.follow_map, Dialogue.follow_repeated ih]
      | composite policy children =>
          rw [dialogueWithin, activateWithin, Dialogue.follow_map, Dialogue.follow_visitBy ih]

/-- To activate a node is to follow its dialogue. -/
theorem activate_eq_follow (run : LeafRun ω) (node : Node) (world : ω) :
    node.activate run world = node.dialogue.follow run world :=
  (follow_dialogueWithin run node.height node world).symm

end Node

end BehaviorTree
