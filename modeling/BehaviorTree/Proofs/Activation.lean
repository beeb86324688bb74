import BehaviorTree.Proofs.Calls
import BehaviorTree.Proofs.Position
import BehaviorTree.Tree

/-! # The activations of a tick

An activation of a node is that node as it was, at a position below the root of the tick, in the
world that it found. It makes calls to the children of the node, each of which is an activation
again, so a tick is a tree of activations (`Activation.all`). Whatever an activation hands on to its
calls holds of all activations of a tick (`Activation.all_induction`). Each of them is of the node
that stands at its position, the cursors apart (`Activation.fresh_node`). -/

namespace BehaviorTree

structure Activation (ω : Type) where
  position : Position
  node : Node
  world : ω

namespace Activation

variable {ω : Type}

def step (run : LeafRun ω) (a : Activation ω) : Step ω Node := a.node.activate run a.world

/-- The calls that an activation makes to the children of its node, in order. -/
def calls (run : LeafRun ω) (a : Activation ω) : List (Call ω Node) :=
  match a.node with
  | .composite policy children => Step.callsBy (Node.activate run) policy children a.world
  | .loop count child => Step.callsRepeated (Node.activate run) count.toNat child a.world
  | .leaf _ _ => []

@[simp] theorem calls_composite (run : LeafRun ω) (position : Position) (policy : Policy)
    (children : List Node) (world : ω) :
    (Activation.mk position (.composite policy children) world).calls run =
      Step.callsBy (Node.activate run) policy children world := rfl

@[simp] theorem calls_loop (run : LeafRun ω) (position : Position) (count : UInt32) (child : Node)
    (world : ω) :
    (Activation.mk position (.loop count child) world).calls run =
      Step.callsRepeated (Node.activate run) count.toNat child world := rfl

@[simp] theorem calls_leaf (run : LeafRun ω) (position : Position) (role : Role) (bound : Leaf)
    (world : ω) : (Activation.mk position (.leaf role bound) world).calls run = [] := rfl

/-- The activation that a call is. -/
def child (a : Activation ω) (call : Call ω Node) : Activation ω :=
  ⟨a.position ++ [call.index], call.item, call.world⟩

end Activation

/-! ## Calls are to the children of the node -/

namespace Step

variable {ω τ : Type} {activate : τ → ω → Step ω τ}

theorem getElem?_of_mem_callsBy {policy : Policy} {items : List τ} {world : ω} {call : Call ω τ}
    (h : call ∈ callsBy activate policy items world) : items[call.index]? = some call.item := by
  cases policy with
  | selector =>
      rw [callsBy_selector] at h
      exact (inOrder_visit .failure).getElem?_of_mem h
  | sequence =>
      rw [callsBy_sequence] at h
      exact (inOrder_visit .success).getElem?_of_mem h
  | parallel =>
      rw [callsBy_parallel] at h
      exact (inOrder_visit .failure).getElem?_of_mem h
  | alternate cursor =>
      cases hitem : items[cursor]? with
      | none =>
          rw [callsBy_alternate_none activate hitem] at h
          exact absurd h List.not_mem_nil
      | some item =>
          rw [callsBy_alternate activate hitem, List.mem_singleton] at h
          rw [h]
          exact hitem

end Step

namespace Activation

variable {ω : Type} {run : LeafRun ω}

/-- A call is to a child of the node, and finds whatever activations keep of it. -/
theorem exists_child_of_mem_calls {a : Activation ω} {call : Call ω Node}
    (h : call ∈ a.calls run) :
    ∃ child, a.node.children[call.index]? = some child ∧
      ∀ keeps : Node → Prop,
        (∀ node world, keeps node → keeps (node.activate run world).state) →
          keeps child → keeps call.item := by
  rw [calls] at h
  split at h
  · rename_i policy children hnode
    refine ⟨call.item, ?_, fun keeps _ hitem => hitem⟩
    rw [hnode]
    exact Step.getElem?_of_mem_callsBy h
  · rename_i count child hnode
    rw [Step.callsRepeated_eq] at h
    have hindex := (Step.repeats_repeatedCalls.of_mem (fun _ => True) (fun _ _ _ => trivial) trivial
      h).1
    refine ⟨child, ?_, fun keeps hkeeps hchild => ?_⟩
    · rw [hnode, hindex]
      rfl
    · exact (Step.repeats_repeatedCalls.of_mem keeps hkeeps hchild h).2
  · exact absurd h List.not_mem_nil

theorem height_lt_of_mem_calls {a : Activation ω} {call : Call ω Node}
    (h : call ∈ a.calls run) : call.item.height < a.node.height := by
  obtain ⟨child, hchild, hkept⟩ := exists_child_of_mem_calls h
  have hheight : call.item.height = child.height :=
    hkept (fun node => node.height = child.height)
      (fun node world hnode => by rwa [Node.activate, Node.height_activateWithin]) rfl
  rw [hheight]
  exact Node.height_lt_of_mem_children (List.mem_of_getElem? hchild)

/-- An activation and all that take place during it, in the order in which they begin. -/
def all (run : LeafRun ω) (a : Activation ω) : List (Activation ω) :=
  a :: (a.calls run).attach.flatMap fun call => all run (a.child call.1)
termination_by a.node.height
decreasing_by exact height_lt_of_mem_calls call.2

theorem all_eq (a : Activation ω) :
    a.all run = a :: (a.calls run).flatMap fun call => (a.child call).all run := by
  rw [all, List.flatMap_subtype (g := fun call => (a.child call).all run) fun _ _ => rfl,
    List.unattach_attach]

/-- What holds of an activation, and passes on to its calls, holds of all that take place during
it. -/
theorem all_induction {P : Activation ω → Prop}
    (hcalls : ∀ a : Activation ω, P a → ∀ call ∈ a.calls run, P (a.child call))
    {root : Activation ω} (hroot : P root) : ∀ a ∈ root.all run, P a := by
  intro a ha
  induction h : root.node.height using Nat.strongRecOn generalizing root with
  | ind height ih =>
      rw [all_eq, List.mem_cons, List.mem_flatMap] at ha
      rcases ha with rfl | ⟨call, hcall, ha⟩
      · exact hroot
      · exact ih _ (h ▸ height_lt_of_mem_calls hcall) (hcalls root hroot call hcall) ha rfl

end Activation

/-! ## Activations stand at positions of the tree -/

namespace Node

/-- Trees that differ in their cursors alone have children that do, at the same indices. -/
theorem exists_child_of_fresh_eq {a b child : Node} {index : Nat} (h : a.fresh = b.fresh)
    (hchild : a.children[index]? = some child) :
    ∃ other, b.children[index]? = some other ∧ child.fresh = other.fresh := by
  have hchildren : a.children.map fresh = b.children.map fresh := by
    rw [← children_fresh, ← children_fresh, h]
  have hget := congrArg (·[index]?) hchildren
  simp only [List.getElem?_map, hchild, Option.map_some] at hget
  obtain ⟨other, hother, heq⟩ := Option.map_eq_some_iff.1 hget.symm
  exact ⟨other, hother, heq.symm⟩

end Node

/-- An activation that takes place during that of a tree is of the node at its position, cursors
apart. -/
theorem Activation.fresh_node {ω : Type} {run : LeafRun ω} {root : Node} {world : ω} :
    ∀ a ∈ Activation.all run ⟨[], root, world⟩,
      ∃ node, root.at? a.position = some node ∧ a.node.fresh = node.fresh := by
  refine all_induction ?_ ⟨root, rfl, rfl⟩
  intro a ⟨node, hnode, hfresh⟩ call hcall
  obtain ⟨child, hchild, hkept⟩ := exists_child_of_mem_calls hcall
  obtain ⟨below, hbelow, hbelowFresh⟩ := Node.exists_child_of_fresh_eq hfresh hchild
  have hitem : call.item.fresh = child.fresh :=
    hkept (fun node => node.fresh = child.fresh)
      (fun node world h => by rwa [Node.fresh_activate]) rfl
  refine ⟨below, ?_, hitem.trans hbelowFresh⟩
  rw [Activation.child, Node.at?_append, hnode, Option.bind_some, Node.at?_cons, hbelow]
  rfl

namespace Tree

variable {σ : Type}

/-- The activation of the root that a tick makes when the agent is in this state. -/
def activation (tree : Tree) (state : σ) : Activation (World σ) := ⟨[], tree.root, ⟨state, #[]⟩⟩

/-- The activations of a tick, in the order in which they begin. -/
def activations (agent : Agent σ) (tree : Tree) (state : σ) : List (Activation (World σ)) :=
  (tree.activation state).all (Leaf.run agent tree.ticks)

end Tree

end BehaviorTree
