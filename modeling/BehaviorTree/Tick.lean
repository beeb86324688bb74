import BehaviorTree.Diagnostic
import BehaviorTree.Node

/-! # Ticks

A tick activates the root of a tree, and a composite or loop activates its children in turn. What
happens at a leaf is a parameter: a leaf turns a world into a verdict and a new world. The inner
nodes only decide which child comes next, and the only thing that an activation changes in the tree
is the cursors, so the result is again a tree of the same form (`fresh_activate`). -/

namespace BehaviorTree

inductive Status where
  | success
  | failure
  deriving DecidableEq

namespace Status

/-- True is success. -/
def ofBool (b : Bool) : Status := if b then .success else .failure

/-- Success if one of the two is. -/
def or : Status → Status → Status
  | .failure, .failure => .failure
  | _, _ => .success

def display : Status → String
  | .success => "Success"
  | .failure => "Failure"

end Status

/-- Why a tick is aborted; `path` is the place of the leaf that aborted it. -/
inductive TickError where
  | missingCapability (capability path : String)
  | capabilityFailed (capability path : String) (failure : Failure)
  deriving DecidableEq

namespace TickError

def capability : TickError → String
  | .missingCapability capability _ => capability
  | .capabilityFailed capability _ _ => capability

def path : TickError → String
  | .missingCapability _ path => path
  | .capabilityFailed _ path _ => path

def message : TickError → String
  | .missingCapability capability path =>
      "agent has no capability `" ++ capability ++ "` (at " ++ path ++ ")"
  | .capabilityFailed capability path failure =>
      "condition `" ++ capability ++ "` at " ++ path ++ " failed: " ++ failure.message

end TickError

/-- What an activation leaves: its outcome, what was activated, and the world. -/
structure Step (ω τ : Type) where
  outcome : Except TickError Status
  state : τ
  world : ω

namespace Step

variable {ω τ υ : Type}

/-- The same step with the activated part put into a larger one. -/
def map (f : τ → υ) (step : Step ω τ) : Step ω υ := ⟨step.outcome, f step.state, step.world⟩

/-- Activates items in order until one has the status `stop` or fails. If none does, the outcome is
success when `sofar` or the status of an item is. -/
def visit (activate : τ → ω → Step ω τ) (stop : Option Status) (sofar : Status) :
    List τ → ω → Step ω (List τ)
  | [], world => ⟨.ok sofar, [], world⟩
  | item :: rest, world =>
      let first := activate item world
      match first.outcome with
      | .error e => ⟨.error e, first.state :: rest, first.world⟩
      | .ok status =>
          if stop = some status then ⟨.ok status, first.state :: rest, first.world⟩
          else (visit activate stop (sofar.or status) rest first.world).map (first.state :: ·)

/-- Activates an item up to `count` times, as long as it succeeds. -/
def repeated (activate : τ → ω → Step ω τ) : (count : Nat) → τ → ω → Step ω τ
  | 0, item, world => ⟨.ok .success, item, world⟩
  | count + 1, item, world =>
      let first := activate item world
      match first.outcome with
      | .ok .success => repeated activate count first.state first.world
      | _ => first

def visitAt (activate : τ → ω → Step ω τ) (index : Nat) (items : List τ) (world : ω) :
    Step ω (List τ) :=
  match items[index]? with
  | none => ⟨.ok .failure, items, world⟩
  | some item => (activate item world).map (items.set index ·)

/-- Activates the children of a composite as its policy says. The turn passes to the next child
before the child at the cursor runs, so that it passes also when the tick is aborted. -/
def visitBy (activate : τ → ω → Step ω τ) :
    Policy → List τ → ω → Step ω (Policy × List τ)
  | .sequence, items, world =>
      (visit activate (some .failure) .success items world).map (.sequence, ·)
  | .selector, items, world =>
      (visit activate (some .success) .failure items world).map (.selector, ·)
  | .parallel, items, world => (visit activate none .failure items world).map (.parallel, ·)
  | .alternate cursor, items, world =>
      (visitAt activate cursor items world).map (.alternate ((cursor + 1) % items.length), ·)

end Step

/-- What happens at a leaf: its verdict, and the world that it leaves. -/
abbrev LeafRun (ω : Type) := Role → Leaf → ω → Except TickError Status × ω

namespace Node

variable {ω : Type}

/-- Activates a node of at most `levels` levels. -/
def activateWithin (run : LeafRun ω) : (levels : Nat) → Node → ω → Step ω Node
  | 0, node, world => ⟨.ok .failure, node, world⟩
  | _ + 1, .leaf role bound, world =>
      ⟨(run role bound world).1, .leaf role bound, (run role bound world).2⟩
  | levels + 1, .loop count child, world =>
      (Step.repeated (activateWithin run levels) count.toNat child world).map (.loop count)
  | levels + 1, .composite policy children, world =>
      (Step.visitBy (activateWithin run levels) policy children world).map
        (fun (policy, children) => .composite policy children)

def activate (run : LeafRun ω) (node : Node) (world : ω) : Step ω Node :=
  node.activateWithin run node.height world

end Node

/-! ## What an activation keeps -/

namespace Step

variable {ω τ υ : Type}

theorem map_visit {f : τ → ω → Step ω τ} {g : τ → υ}
    (h : ∀ item world, g (f item world).state = g item)
    (stop : Option Status) (sofar : Status) (items : List τ) (world : ω) :
    (visit f stop sofar items world).state.map g = items.map g := by
  induction items generalizing sofar world with
  | nil => rfl
  | cons item rest ih =>
      rw [visit]
      split
      · simp [h]
      split
      · simp [h]
      · simp [Step.map, h, ih]

theorem repeated_state {f : τ → ω → Step ω τ} {g : τ → υ}
    (h : ∀ item world, g (f item world).state = g item) (count : Nat) (item : τ) (world : ω) :
    g (repeated f count item world).state = g item := by
  induction count generalizing item world with
  | zero => rfl
  | succ count ih =>
      rw [repeated]
      split
      · rw [ih, h]
      · exact h item world

theorem map_visitAt {f : τ → ω → Step ω τ} {g : τ → υ}
    (h : ∀ item world, g (f item world).state = g item) (index : Nat) (items : List τ) (world : ω) :
    (visitAt f index items world).state.map g = items.map g := by
  rw [visitAt]
  split
  · rfl
  · rename_i item hitem
    obtain ⟨hlt, rfl⟩ := List.getElem?_eq_some_iff.1 hitem
    rw [Step.map, List.map_set, h]
    refine List.ext_getElem (by simp) fun i hi _ => ?_
    rw [List.getElem_set]
    split
    · rename_i heq
      subst heq
      simp
    · rfl

theorem map_visitBy {f : τ → ω → Step ω τ} {g : τ → υ}
    (h : ∀ item world, g (f item world).state = g item) (policy : Policy) (items : List τ)
    (world : ω) :
    (visitBy f policy items world).state.1.fresh = policy.fresh ∧
      (visitBy f policy items world).state.2.map g = items.map g := by
  cases policy with
  | selector => exact ⟨rfl, map_visit h _ _ items world⟩
  | sequence => exact ⟨rfl, map_visit h _ _ items world⟩
  | parallel => exact ⟨rfl, map_visit h _ _ items world⟩
  | alternate cursor => exact ⟨rfl, map_visitAt h cursor items world⟩

end Step

namespace Node

variable {ω : Type}

theorem fresh_activateWithin (run : LeafRun ω) (levels : Nat) (node : Node) (world : ω) :
    (node.activateWithin run levels world).state.fresh = node.fresh := by
  induction levels generalizing node world with
  | zero => rfl
  | succ levels ih =>
      cases node with
      | leaf role bound => rfl
      | loop count child =>
          simp [activateWithin, Step.map, fresh, Step.repeated_state ih]
      | composite policy children =>
          obtain ⟨hpolicy, hchildren⟩ := Step.map_visitBy ih policy children world
          simp [activateWithin, Step.map, fresh, freshAll_eq_map, hpolicy, hchildren]

/-- An activation changes nothing in the tree but its cursors. -/
theorem fresh_activate (run : LeafRun ω) (node : Node) (world : ω) :
    (node.activate run world).state.fresh = node.fresh :=
  fresh_activateWithin run node.height node world

theorem height_activateWithin (run : LeafRun ω) (levels : Nat) (node : Node) (world : ω) :
    (node.activateWithin run levels world).state.height = node.height := by
  rw [← height_fresh, fresh_activateWithin, height_fresh]

end Node

/-! ## An activation by cases

The number of levels only bounds the recursion: any bound that is large enough gives the same
activation. -/

namespace Step

variable {ω τ : Type}

theorem visit_congr {f g : τ → ω → Step ω τ} {items : List τ}
    (h : ∀ item ∈ items, ∀ world, f item world = g item world) (stop : Option Status)
    (sofar : Status) (world : ω) :
    visit f stop sofar items world = visit g stop sofar items world := by
  induction items generalizing sofar world with
  | nil => rfl
  | cons item rest ih =>
      have hrest := ih fun item hitem => h item (List.mem_cons_of_mem _ hitem)
      simp only [visit, h item List.mem_cons_self, hrest]

theorem repeated_congr {f g : τ → ω → Step ω τ} {keeps : τ → Prop}
    (h : ∀ item, keeps item → ∀ world, f item world = g item world)
    (hkeeps : ∀ item, keeps item → ∀ world, keeps (g item world).state) (count : Nat) {item : τ}
    (hitem : keeps item) (world : ω) :
    repeated f count item world = repeated g count item world := by
  induction count generalizing item world with
  | zero => rfl
  | succ count ih => simp only [repeated, h item hitem, ih (hkeeps item hitem world)]

theorem visitAt_congr {f g : τ → ω → Step ω τ} {items : List τ}
    (h : ∀ item ∈ items, ∀ world, f item world = g item world) (index : Nat) (world : ω) :
    visitAt f index items world = visitAt g index items world := by
  simp only [visitAt]
  split
  · rfl
  · rename_i item hitem
    rw [h item (List.mem_of_getElem? hitem)]

theorem visitBy_congr {f g : τ → ω → Step ω τ} {items : List τ}
    (h : ∀ item ∈ items, ∀ world, f item world = g item world) (policy : Policy) (world : ω) :
    visitBy f policy items world = visitBy g policy items world := by
  cases policy <;> simp only [visitBy, visit_congr h, visitAt_congr h]

end Step

namespace Node

variable {ω : Type}

theorem activateWithin_congr (run : LeafRun ω) {a b : Nat} {node : Node} (ha : node.height ≤ a)
    (hb : node.height ≤ b) (world : ω) :
    node.activateWithin run a world = node.activateWithin run b world := by
  induction a generalizing b node world with
  | zero => exact absurd (height_pos node) (by omega)
  | succ a ih =>
      cases b with
      | zero => exact absurd (height_pos node) (by omega)
      | succ b =>
          cases node with
          | leaf role bound => rfl
          | loop count child =>
              rw [height] at ha hb
              rw [activateWithin, activateWithin,
                Step.repeated_congr
                  (fun item (hitem : item.height ≤ child.height) world =>
                    ih (b := b) (by omega) (by omega) world)
                  (fun item hitem world => by rwa [height_activateWithin]) _ (Nat.le_refl _)]
          | composite policy children =>
              rw [height] at ha hb
              rw [activateWithin, activateWithin, Step.visitBy_congr fun item hitem world =>
                ih (b := b) (Nat.le_trans (height_le_heightAll hitem) (by omega))
                  (Nat.le_trans (height_le_heightAll hitem) (by omega)) world]

@[simp] theorem activate_leaf (run : LeafRun ω) (role : Role) (bound : Leaf) (world : ω) :
    (Node.leaf role bound).activate run world =
      ⟨(run role bound world).1, .leaf role bound, (run role bound world).2⟩ := rfl

theorem activate_loop (run : LeafRun ω) (count : UInt32) (child : Node) (world : ω) :
    (Node.loop count child).activate run world =
      (Step.repeated (activate run) count.toNat child world).map (.loop count) := by
  rw [activate, height, activateWithin,
    Step.repeated_congr (fun item (hitem : item.height ≤ child.height) world =>
        activateWithin_congr run hitem (Nat.le_refl _) world)
      (fun item hitem world => by rwa [height_activateWithin]) _ (Nat.le_refl _)]
  rfl

theorem activate_composite (run : LeafRun ω) (policy : Policy) (children : List Node) (world : ω) :
    (Node.composite policy children).activate run world =
      (Step.visitBy (activate run) policy children world).map
        (fun (policy, children) => .composite policy children) := by
  rw [activate, height, activateWithin, Step.visitBy_congr fun item hitem world =>
    activateWithin_congr run (height_le_heightAll hitem) (Nat.le_refl _) world]
  rfl

end Node

end BehaviorTree
