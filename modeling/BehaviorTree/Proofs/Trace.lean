import BehaviorTree.Proofs.Activation

/-! # The leaves that a tick runs

The activations of a tick are listed by looking at each of them again and at the calls that it
makes. That they are what takes place can be seen from outside: let the leaves write down that they
are run (`LeafRun.noting`), and activate the tree once. It leaves the same as without the notes, and
the notes are the activations of leaves in the list, in order (`Activation.activate_noting`). -/

namespace BehaviorTree

/-- Runs leaves and notes which ones they are and which world they find. -/
def LeafRun.noting {ω : Type} (run : LeafRun ω) : LeafRun (ω × List (Role × Leaf × ω)) :=
  fun role bound world =>
    ((run role bound world.1).1, (run role bound world.1).2, world.2 ++ [(role, bound, world.1)])

/-- The leaf that an activation is of, and the world that it finds. -/
def Activation.leaf? {ω : Type} (a : Activation ω) : Option (Role × Leaf × ω) :=
  match a.node with
  | .leaf role bound => some (role, bound, a.world)
  | _ => none

namespace Step

variable {ω τ α : Type}

/-- The same step in a world with notes. -/
def withNotes (step : Step ω τ) (noted : List α) : Step (ω × List α) τ :=
  ⟨step.outcome, step.state, (step.world, noted)⟩

/-! ## A visit by activations that take notes

Each activation adds its own notes to those that it finds. Then a visit leaves the same as without
notes, and adds the notes of its calls in order. -/

variable {noting : τ → ω × List α → Step (ω × List α) τ} {activate : τ → ω → Step ω τ}
  {notes : Call ω τ → List α}

theorem visit_noting {items : List τ}
    (h : ∀ call : Call ω τ, call.item ∈ items → ∀ noted,
      noting call.item (call.world, noted) = (call.step activate).withNotes (noted ++ notes call))
    (stop : Option Status) (sofar : Status) (index : Nat) (world : ω) (noted : List α) :
    visit noting stop sofar items (world, noted) =
      (visit activate stop sofar items world).withNotes
        (noted ++ (visitCalls activate stop index items world).flatMap notes) := by
  induction items generalizing sofar index world noted with
  | nil => simp [visit, visitCalls, withNotes]
  | cons item rest ih =>
      have hfirst := h ⟨index, item, world⟩ List.mem_cons_self noted
      have hrest := ih fun call hcall => h call (List.mem_cons_of_mem item hcall)
      rw [Call.step] at hfirst
      by_cases hstops : Stops stop (activate item world).outcome
      · have hstops' : Stops stop (noting item (world, noted)).outcome := by
          rw [hfirst]
          exact hstops
        rw [visitCalls_cons_of_stops hstops, visit_cons_of_stops hstops,
          visit_cons_of_stops hstops', hfirst, List.flatMap_singleton]
        rfl
      · obtain ⟨status, houtcome, hstop⟩ := not_stops_iff.1 hstops
        have houtcome' : (noting item (world, noted)).outcome = .ok status := by
          rw [hfirst]
          exact houtcome
        rw [visitCalls_cons_of_goes_on houtcome hstop, visit_cons_of_goes_on houtcome hstop,
          visit_cons_of_goes_on houtcome' hstop, hfirst, List.flatMap_cons, ← List.append_assoc]
        exact congrArg (Step.map _) (hrest _ (index + 1) _ _)

theorem repeated_noting (keeps : τ → Prop)
    (h : ∀ call : Call ω τ, keeps call.item → ∀ noted,
      noting call.item (call.world, noted) = (call.step activate).withNotes (noted ++ notes call))
    (hkeeps : ∀ item world, keeps item → keeps (activate item world).state) (count : Nat)
    {item : τ} (hitem : keeps item) (world : ω) (noted : List α) :
    repeated noting count item (world, noted) =
      (repeated activate count item world).withNotes
        (noted ++ (repeatedCalls activate count item world).flatMap notes) := by
  induction count generalizing item world noted with
  | zero => simp [repeated, repeatedCalls, withNotes]
  | succ count ih =>
      have hfirst := h ⟨0, item, world⟩ hitem noted
      rw [Call.step] at hfirst
      by_cases hsuccess : (activate item world).outcome = .ok .success
      · have hsuccess' : (noting item (world, noted)).outcome = .ok .success := by
          rw [hfirst]
          exact hsuccess
        rw [repeatedCalls_succ_of_success hsuccess, repeated_succ_of_success hsuccess,
          repeated_succ_of_success hsuccess', hfirst, List.flatMap_cons, ← List.append_assoc]
        exact ih (hkeeps item world hitem) _ _
      · have hsuccess' : (noting item (world, noted)).outcome ≠ .ok .success := by
          rw [hfirst]
          exact hsuccess
        rw [repeatedCalls_succ_of_not_success hsuccess, repeated_succ_of_not_success hsuccess,
          repeated_succ_of_not_success hsuccess', hfirst, List.flatMap_singleton]

theorem visitBy_noting {items : List τ}
    (h : ∀ call : Call ω τ, call.item ∈ items → ∀ noted,
      noting call.item (call.world, noted) = (call.step activate).withNotes (noted ++ notes call))
    (policy : Policy) (world : ω) (noted : List α) :
    visitBy noting policy items (world, noted) =
      (visitBy activate policy items world).withNotes
        (noted ++ (callsBy activate policy items world).flatMap notes) := by
  cases policy with
  | selector =>
      rw [callsBy_selector, visitBy, visit_noting h _ _ 0]
      rfl
  | sequence =>
      rw [callsBy_sequence, visitBy, visit_noting h _ _ 0]
      rfl
  | parallel =>
      rw [callsBy_parallel, visitBy, visit_noting h _ _ 0]
      rfl
  | alternate cursor =>
      cases hitem : items[cursor]? with
      | none =>
          rw [callsBy_alternate_none activate hitem, visitBy, visitBy, visitAt, visitAt, hitem,
            List.flatMap_nil, List.append_nil]
          rfl
      | some item =>
          have hcall := h ⟨cursor, item, world⟩ (List.mem_of_getElem? hitem) noted
          rw [callsBy_alternate activate hitem, visitBy, visitBy, visitAt, visitAt, hitem,
            List.flatMap_singleton]
          dsimp only
          rw [hcall]
          rfl

end Step

/-! ## The notes of a tree -/

namespace Activation

variable {ω : Type} {run : LeafRun ω}

/-- An activation whose leaves take notes leaves the same as without, and notes the activations of
leaves that take place during it. -/
theorem activate_noting (a : Activation ω) (noted : List (Role × Leaf × ω)) :
    a.node.activate run.noting (a.world, noted) =
      (a.step run).withNotes (noted ++ (a.all run).filterMap leaf?) := by
  induction hheight : a.node.height using Nat.strongRecOn generalizing a noted with
  | ind height ih =>
      -- What the calls note, the induction says, since their nodes are lower.
      have hcall : ∀ (call : Call ω Node) (noted : List (Role × Leaf × ω)),
          call.item.height < height → call.item.activate run.noting (call.world, noted) =
            (call.step (Node.activate run)).withNotes
              (noted ++ ((a.child call).all run).filterMap leaf?) :=
        fun call noted hlt => ih _ hlt (a.child call) noted rfl
      have hall : (a.all run).filterMap leaf? = a.leaf?.toList ++
          (a.calls run).flatMap fun call => ((a.child call).all run).filterMap leaf? := by
        rw [all_eq, List.filterMap_cons, List.filterMap_flatMap]
        cases a.leaf? <;> rfl
      rw [hall]
      clear hall ih
      obtain ⟨position, node, world⟩ := a
      cases node with
      | leaf role bound =>
          rw [calls_leaf, List.flatMap_nil, List.append_nil]
          rfl
      | loop count child =>
          have hlt : child.height < height := by
            rw [← hheight]
            exact Node.height_lt_of_mem_children (List.mem_singleton_self child)
          -- The child changes between its calls, but not its height.
          have hloop := Step.repeated_noting (fun node => node.height = child.height)
            (fun call hheight noted => hcall call noted (by rwa [hheight]))
            (fun node world hheight => by rwa [Node.activate, Node.height_activateWithin])
            count.toNat rfl world noted
          rw [calls_loop, Step.callsRepeated_eq, step, Node.activate_loop, Node.activate_loop,
            hloop]
          rfl
      | composite policy children =>
          have hlt : ∀ child ∈ children, child.height < height := by
            intro child hchild
            rw [← hheight]
            exact Node.height_lt_of_mem_children hchild
          have hvisit := Step.visitBy_noting
            (fun call hitem noted => hcall call noted (hlt call.item hitem)) policy world noted
          rw [calls_composite, step, Node.activate_composite, Node.activate_composite, hvisit]
          rfl

end Activation

namespace Tree

variable {σ : Type}

/-- The leaves that a tick runs, each in the world that it finds, are the activations of leaves in
the order in which they are listed. -/
theorem tick_noting (agent : Agent σ) (tree : Tree) (state : σ) :
    tree.root.activate (Leaf.run agent tree.ticks).noting (⟨state, #[]⟩, []) =
      ((tree.activation state).step (Leaf.run agent tree.ticks)).withNotes
        ((tree.activations agent state).filterMap Activation.leaf?) :=
  (tree.activation state).activate_noting []

end Tree

end BehaviorTree
