import BehaviorTree.Proofs.Activation
import BehaviorTree.Proofs.Compilation

/-! # Cursors stay in range

A composite that takes its children in turns looks one up at its cursor and moves the cursor on
modulo their number, so both are safe as long as the cursor is below that number (`Node.InRange`).
The compiler sees to it that this holds to begin with, since it accepts no composite without
children, and every activation keeps it, however it ends. A run of ticks is then followed from the
compiled tree (`Tree.Reaches`): it changes nothing but cursors, and never takes one out of range. -/

namespace BehaviorTree

/-- A policy fits this many children if its cursor, if it has one, is below the number. -/
def Policy.Fits (policy : Policy) (number : Nat) : Prop :=
  ∀ cursor, policy = .alternate cursor → cursor < number

namespace Node

/-- Every node of a tree that takes its children in turns has its cursor below their number. -/
def InRange (node : Node) : Prop :=
  ∀ (position : Position) (cursor : Nat) (children : List Node),
    node.at? position = some (.composite (.alternate cursor) children) → cursor < children.length

/-- No node of a tree takes its children in turns. -/
def HasNoCursor (node : Node) : Prop :=
  ∀ (position : Position) (cursor : Nat) (children : List Node),
    node.at? position ≠ some (.composite (.alternate cursor) children)

/-! ## Trees in range by their children -/

theorem InRange.child {node child : Node} (h : node.InRange) (hchild : child ∈ node.children) :
    child.InRange := by
  intro position cursor children hat
  obtain ⟨index, hnode⟩ := exists_at?_of_mem_children hchild hat
  exact h (index :: position) cursor children hnode

theorem InRange.fits {policy : Policy} {children : List Node}
    (h : (Node.composite policy children).InRange) : policy.Fits children.length := by
  rintro cursor rfl
  exact h [] cursor children rfl

theorem inRange_of_children {node : Node}
    (hnode : ∀ cursor children, node = .composite (.alternate cursor) children →
      cursor < children.length)
    (hchildren : ∀ child ∈ node.children, child.InRange) : node.InRange := by
  intro position cursor children hat
  cases position with
  | nil => exact hnode cursor children (Option.some.inj hat)
  | cons index rest =>
      rw [at?_cons, Option.bind_eq_some_iff] at hat
      obtain ⟨child, hchild, hat⟩ := hat
      exact hchildren child (List.mem_of_getElem? hchild) rest cursor children hat

theorem inRange_composite {policy : Policy} {children : List Node}
    (hpolicy : policy.Fits children.length) (hchildren : ∀ child ∈ children, child.InRange) :
    (Node.composite policy children).InRange := by
  refine inRange_of_children ?_ hchildren
  intro cursor nodes heq
  obtain ⟨rfl, rfl⟩ := Node.composite.inj heq
  exact hpolicy cursor rfl

theorem inRange_loop {count : UInt32} {child : Node} (hchild : child.InRange) :
    (Node.loop count child).InRange := by
  refine inRange_of_children (fun _ _ heq => by cases heq) ?_
  intro other hother
  rwa [List.mem_singleton.1 hother]

theorem inRange_leaf (role : Role) (bound : Leaf) : (Node.leaf role bound).InRange := by
  refine inRange_of_children (fun _ _ heq => by cases heq) ?_
  intro child hchild
  exact absurd hchild List.not_mem_nil

/-! ## Trees that differ in their cursors alone -/

/-- A tree is as it was compiled if all its cursors are at the first child. -/
theorem fresh_eq_self {node : Node}
    (h : ∀ (position : Position) (cursor : Nat) (children : List Node),
      node.at? position = some (.composite (.alternate cursor) children) → cursor = 0) :
    node.fresh = node := by
  induction node using child_induction with
  | step node ih =>
      have hchildren : node.children.map fresh = node.children := by
        refine (List.map_congr_left fun child hchild => ?_).trans (List.map_id _)
        refine ih child hchild fun position cursor children hat => ?_
        obtain ⟨index, hnode⟩ := exists_at?_of_mem_children hchild hat
        exact h (index :: position) cursor children hnode
      cases node with
      | leaf role bound => rfl
      | loop count child =>
          rw [fresh, List.singleton_inj.1 hchildren]
      | composite policy children =>
          have hpolicy : policy.fresh = policy := by
            cases policy with
            | alternate cursor => rw [h [] cursor children rfl, Policy.fresh]
            | selector => rfl
            | sequence => rfl
            | parallel => rfl
          rw [fresh, hpolicy, freshAll_eq_map]
          exact congrArg _ hchildren

/-- Where there is no cursor, trees that differ in their cursors alone are the same. -/
theorem HasNoCursor.eq_of_fresh_eq {a b : Node} (h : b.HasNoCursor) (heq : a.fresh = b.fresh) :
    a = b := by
  have hb : b.fresh = b := fresh_eq_self fun position cursor children hat =>
    absurd hat (h position cursor children)
  have ha : a.fresh = a := by
    refine fresh_eq_self fun position cursor children hat => ?_
    have hfresh := at?_fresh a position
    rw [heq, hb, hat] at hfresh
    exact absurd hfresh (h position 0 (freshAll children))
  calc a = a.fresh := ha.symm
    _ = b.fresh := heq
    _ = b := hb

end Node

/-! ## Every way of visiting keeps what its activations keep -/

namespace Step

variable {ω τ : Type} {activate : τ → ω → Step ω τ}

theorem keeps_visitAt {keeps : τ → Prop}
    (hkeeps : ∀ item world, keeps item → keeps (activate item world).state) (index : Nat)
    {items : List τ} (hitems : ∀ item ∈ items, keeps item) (world : ω) :
    ∀ item ∈ (visitAt activate index items world).state, keeps item := by
  rw [visitAt]
  split
  · exact hitems
  · rename_i called hcalled
    intro item hitem
    rcases List.mem_or_eq_of_mem_set hitem with hitem | rfl
    · exact hitems item hitem
    · exact hkeeps called world (hitems called (List.mem_of_getElem? hcalled))

theorem keeps_visitBy {keeps : τ → Prop}
    (hkeeps : ∀ item world, keeps item → keeps (activate item world).state) (policy : Policy)
    {items : List τ} (hitems : ∀ item ∈ items, keeps item) (world : ω) :
    ∀ item ∈ (visitBy activate policy items world).state.2, keeps item := by
  cases policy with
  | selector => exact (inOrder_visit _).forall_mem_left hkeeps hitems
  | sequence => exact (inOrder_visit _).forall_mem_left hkeeps hitems
  | parallel => exact (inOrder_visit _).forall_mem_left hkeeps hitems
  | alternate cursor => exact keeps_visitAt hkeeps cursor hitems world

theorem length_visitBy (policy : Policy) (items : List τ) (world : ω) :
    (visitBy activate policy items world).state.2.length = items.length := by
  have hmap := (map_visitBy (f := activate) (g := fun _ => ()) (fun _ _ => rfl) policy items
    world).2
  simpa using congrArg List.length hmap

/-- The cursor goes on modulo the number of items, however the visit ends. -/
theorem fits_visitBy {policy : Policy} {items : List τ} (h : policy.Fits items.length) (world : ω) :
    (visitBy activate policy items world).state.1.Fits
      (visitBy activate policy items world).state.2.length := by
  rw [length_visitBy]
  cases policy with
  | selector => exact fun _ heq => by cases heq
  | sequence => exact fun _ heq => by cases heq
  | parallel => exact fun _ heq => by cases heq
  | alternate cursor =>
      have hcursor : cursor < items.length := h cursor rfl
      rintro next heq
      obtain rfl : (cursor + 1) % items.length = next := Policy.alternate.inj heq
      exact Nat.mod_lt _ (by omega)

end Step

/-! ## Every activation keeps the cursors in range -/

namespace Node

variable {ω : Type}

theorem inRange_activateWithin (run : LeafRun ω) (levels : Nat) {node : Node} (h : node.InRange)
    (world : ω) : (node.activateWithin run levels world).state.InRange := by
  induction levels generalizing node world with
  | zero => exact h
  | succ levels ih =>
      have hkeeps : ∀ (node : Node) (world : ω), node.InRange →
          (node.activateWithin run levels world).state.InRange := fun _ world h => ih h world
      cases node with
      | leaf role bound => exact inRange_leaf role bound
      | loop count child =>
          have hchild : child.InRange := h.child (List.mem_singleton_self child)
          exact inRange_loop (Step.repeats_repeatedCalls.left_of_item hkeeps hchild)
      | composite policy children =>
          have hchildren : ∀ child ∈ children, child.InRange := fun _ hchild => h.child hchild
          exact inRange_composite (Step.fits_visitBy h.fits world)
            (Step.keeps_visitBy hkeeps policy hchildren world)

/-- An activation keeps the cursors in range, also when it is cut short by an error. -/
theorem inRange_activate (run : LeafRun ω) {node : Node} (h : node.InRange) (world : ω) :
    (node.activate run world).state.InRange :=
  inRange_activateWithin run node.height h world

end Node

/-- If the cursors are in range at first, every activation finds them so. -/
theorem Activation.inRange_node {ω : Type} {run : LeafRun ω} {root : Activation ω}
    (h : root.node.InRange) : ∀ a ∈ root.all run, a.node.InRange := by
  refine all_induction ?_ h
  intro a ha call hcall
  obtain ⟨child, hchild, hkept⟩ := exists_child_of_mem_calls hcall
  exact hkept Node.InRange (fun _ world h => Node.inRange_activate run h world)
    (ha.child (List.mem_of_getElem? hchild))

/-! ## Compiled trees -/

namespace Spec

/-- A site without children is not that of a composite. -/
theorem arity_pos_of_composite {config : Config} {site : Site} (h : site.Valid config)
    (hcategory : site.category = "Composites") : 0 < site.arity := by
  cases h with
  | composite _ _ arity => exact arity
  | loop category => simp [hcategory] at category
  | leaf category => simp [hcategory] at category

variable {config : Config} {spec : Spec} {root : Node}

/-- In a compiled tree the turns start with the first child, and there is one. -/
theorem alternate_of_compile (h : spec.compile config = .ok root) {position : Position}
    {cursor : Nat} {children : List Node}
    (hat : root.at? position = some (.composite (.alternate cursor) children)) :
    cursor = 0 ∧ 0 < children.length := by
  have hmirrors := mirrors_of_compileAt h position
  rw [hat] at hmirrors
  generalize hsite : spec.site? spec.kind position = found at hmirrors
  cases hmirrors with
  | some hnode =>
      rename_i site
      have hvalid : site.Valid config :=
        exists_compile_eq_ok_iff.1 ⟨root, h⟩ site (mem_sites_iff.2 ⟨position, hsite⟩)
      cases hnode with
      | composite category kind arity hcursor =>
          have harity := arity_pos_of_composite hvalid category
          exact ⟨hcursor cursor rfl, by omega⟩

theorem inRange_of_compile (h : spec.compile config = .ok root) : root.InRange := by
  intro position cursor children hat
  obtain ⟨hcursor, hpos⟩ := alternate_of_compile h hat
  omega

theorem fresh_of_compile (h : spec.compile config = .ok root) : root.fresh = root :=
  Node.fresh_eq_self fun _ _ _ hat => (alternate_of_compile h hat).1

end Spec

/-! ## Runs of ticks -/

namespace Tree

/-- The trees that ticks lead to. Each tick may be against another agent, in any state. -/
inductive Reaches (start : Tree) : Tree → Prop where
  | refl : Reaches start start
  | tick {σ : Type} {tree : Tree} (agent : Agent σ) (state : σ) (before : Reaches start tree) :
      Reaches start (tree.tick agent state).tree

variable {σ : Type} {start tree : Tree}

theorem inRange_tick (h : tree.root.InRange) (agent : Agent σ) (state : σ) :
    (tree.tick agent state).tree.root.InRange :=
  Node.inRange_activate (Leaf.run agent tree.ticks) h ⟨state, #[]⟩

theorem fresh_tick (tree : Tree) (agent : Agent σ) (state : σ) :
    (tree.tick agent state).tree.root.fresh = tree.root.fresh :=
  Node.fresh_activate (Leaf.run agent tree.ticks) tree.root ⟨state, #[]⟩

namespace Reaches

theorem inRange (h : Reaches start tree) (hstart : start.root.InRange) : tree.root.InRange := by
  induction h with
  | refl => exact hstart
  | tick agent state before ih => exact inRange_tick ih agent state

theorem fresh_eq (h : Reaches start tree) : tree.root.fresh = start.root.fresh := by
  induction h with
  | refl => rfl
  | tick agent state before ih => rw [fresh_tick, ih]

end Reaches

/-- What is true of a compiled tree after any ticks, whatever came of them. Its cursors are in
range, and it is the compiled tree but for them, or altogether if it has none. The same is true of
every node before and after each of its activations in the next tick, so one that takes its children
in turns is never without a child to turn to. -/
theorem reached_from_compiled {config : Config} {spec : Spec} {root : Node} {tree : Tree}
    (hcompile : spec.compile config = .ok root) (hreached : Reaches (.ofRoot root) tree) :
    tree.root.InRange ∧ tree.root.fresh = root ∧ tree.size = root.size ∧
      (root.HasNoCursor → tree.root = root) ∧
      ∀ (σ : Type) (agent : Agent σ) (state : σ), ∀ a ∈ tree.activations agent state,
        let after := (a.step (Leaf.run agent tree.ticks)).state
        a.node.InRange ∧ after.InRange ∧
          root.at? a.position = some a.node.fresh ∧ root.at? a.position = some after.fresh ∧
          ∀ cursor children, a.node = .composite (.alternate cursor) children →
            children.length ≠ 0 ∧ ∃ child, children[cursor]? = some child := by
  have hrootFresh : root.fresh = root := Spec.fresh_of_compile hcompile
  have hrange : tree.root.InRange := hreached.inRange (Spec.inRange_of_compile hcompile)
  have hfresh : tree.root.fresh = root := hreached.fresh_eq.trans hrootFresh
  refine ⟨hrange, hfresh, ?_, ?_, ?_⟩
  · calc tree.size = tree.root.fresh.size := (Node.size_fresh tree.root).symm
      _ = root.size := by rw [hfresh]
  · intro hnone
    exact hnone.eq_of_fresh_eq (hfresh.trans hrootFresh.symm)
  · intro σ agent state a ha
    have hall : ∀ a ∈ tree.activations agent state, a.node.InRange :=
      Activation.inRange_node hrange
    have hnode : a.node.InRange := hall a ha
    have hposition : root.at? a.position = some a.node.fresh := by
      obtain ⟨node, hat, heq⟩ := Activation.fresh_node a ha
      rw [← hfresh, Node.at?_fresh, hat, heq]
      rfl
    refine ⟨hnode, Node.inRange_activate _ hnode a.world, hposition, ?_, ?_⟩
    · rw [Activation.step, Node.fresh_activate, hposition]
    · intro cursor children heq
      have hcursor : cursor < children.length := hnode [] cursor children (by rw [heq]; rfl)
      exact ⟨by omega, children[cursor], List.getElem?_eq_getElem hcursor⟩

/-- Two children that take turns: a tick that is aborted at the first one leaves the turn to the
second. -/
theorem reached_from_compiled_two_turns :
    ∃ (spec : Spec) (root : Node) (tree : Tree), spec.compile .default = .ok root ∧
      Reaches (.ofRoot root) tree ∧ tree.root.cursors = [1] ∧
      tree.root.InRange ∧ tree.root.fresh = root ∧ tree.size = root.size := by
  let spec := (Spec.composite "Alternate").withChildren [.action "Open", .action "Close"]
  obtain ⟨root, hcompile⟩ : ∃ root, spec.compile .default = .ok root := ⟨_, rfl⟩
  let helpless : Agent Unit := ⟨fun _ _ => none⟩
  have hreached : Reaches (.ofRoot root) ((ofRoot root).tick helpless ()).tree :=
    .tick helpless () .refl
  obtain ⟨hrange, hfresh, hsize, -, -⟩ := reached_from_compiled hcompile hreached
  refine ⟨spec, root, _, hcompile, hreached, ?_, hrange, hfresh, hsize⟩
  cases hcompile
  rfl

end Tree

end BehaviorTree
