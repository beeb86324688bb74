import BehaviorTree.Proofs.Layout

/-! # Every node is read once

The elements of a document that carry the qualifier attribute are its nodes in the order in which
they are written (`Document.carriers`). Containers are looked through once, so what a node holds is
what its child nodes hold, and the nodes from the top node on are those of the description, one for
one. The root and the tree container are not asked for the qualifier attribute: what they carry is
not read. -/

namespace BehaviorTree

open Markup (Element)

namespace Spec

/-- The nodes of a description in the order in which they are written. -/
def nodes (spec : Spec) : List Spec := (spec.preorder 0).map (·.2)

theorem preorderAll_eq_flatMap (depth : Nat) (specs : List Spec) :
    preorderAll depth specs = specs.flatMap (preorder depth) := by
  induction specs with
  | nil => rfl
  | cons spec rest ih => rw [preorderAll, ih, List.flatMap_cons]

theorem preorder_eq (depth : Nat) (spec : Spec) :
    spec.preorder depth = (depth, spec) :: spec.children.flatMap (preorder (depth + 1)) := by
  obtain ⟨space, category, kind, attributes, children⟩ := spec
  rw [preorder, preorderAll_eq_flatMap]

theorem map_preorder (depth : Nat) (spec : Spec) :
    (spec.preorder depth).map (·.2) = spec.nodes := by
  unfold nodes
  -- Depths only grow on the way down, so two starting depths are compared.
  generalize 0 = other
  induction spec using child_induction generalizing depth other with
  | step spec ih =>
      rw [preorder_eq, preorder_eq other, List.map_cons, List.map_cons, List.map_flatMap,
        List.map_flatMap]
      congr 1
      apply List.flatMap_congr
      intro child hchild
      exact ih child hchild (depth + 1) (other + 1)

theorem nodes_eq (spec : Spec) : spec.nodes = spec :: spec.children.flatMap nodes := by
  rw [nodes, preorder_eq, List.map_cons, List.map_flatMap]
  congr 1
  apply List.flatMap_congr
  intro child _
  exact map_preorder 1 child

end Spec

namespace Document

/-- The elements with the qualifier attribute, from an element on down, in order. -/
def carriers (config : Config) (element : Element) : List Element :=
  element.inOrder.filter (isNode config)

variable {config : Config}

theorem carriers_eq (element : Element) : carriers config element =
    [element].filter (isNode config) ++ element.children.flatMap (carriers config) := by
  rw [carriers, Element.inOrder_eq, ← List.singleton_append, List.filter_append,
    List.filter_flatMap]
  rfl

theorem carriers_of_isNode {element : Element} (h : isNode config element = true) :
    carriers config element = element :: element.children.flatMap (carriers config) := by
  rw [carriers_eq, List.filter_cons_of_pos h]
  rfl

theorem carriers_of_container {element : Element} (h : isNode config element = false) :
    carriers config element = element.children.flatMap (carriers config) := by
  rw [carriers_eq, List.filter_cons_of_neg (by simp [h])]
  rfl

/-- What an element holds is what is seen when its containers are looked through. -/
theorem flatMap_carriers_children (element : Element) :
    element.children.flatMap (carriers config) =
      (childNodes config element).flatMap (carriers config) := by
  rw [childNodes, List.flatMap_assoc]
  apply List.flatMap_congr
  intro child _
  unfold lookThrough
  cases h : isNode config child with
  | true => rw [if_pos rfl, List.flatMap_singleton]
  | false => rw [if_neg Bool.false_ne_true, carriers_of_container h]

/-- The nodes of a description are those of the element that it describes, one for one. -/
theorem forall₂_carriers {element : Element} {spec : Spec} (h : Describes config element spec) :
    List.Forall₂ (Describes config) (carriers config element) spec.nodes := by
  induction spec using Spec.child_induction generalizing element with
  | step spec ih =>
      rw [carriers_of_isNode h.isNode, flatMap_carriers_children, Spec.nodes_eq]
      -- The element itself is described, and its child nodes bring their own nodes with them.
      apply List.Forall₂.cons h
      obtain ⟨-, -, -, children⟩ := h
      apply List.rel_flatMap (R := fun node child => List.Forall₂ (Describes config)
        (carriers config node) child.nodes)
      · apply forall₂_imp_of_mem children
        intro node _ child hchild hdescribes
        exact ih child hchild hdescribes
      · intro node child hcarriers
        exact hcarriers

/-- Only the root and the tree container stand above the top node and can carry the attribute. -/
theorem carriers_of_isTop {root top : Element} (h : IsTop config root top) :
    ∃ container, root.children = [container] ∧
      carriers config root = [root, container].filter (isNode config) ++ carriers config top := by
  have habove : ∀ {container held : Element}, root.children = [container] →
      container.children = [held] → carriers config root =
        [root, container].filter (isNode config) ++ carriers config held := by
    intro container held htree hholds
    calc carriers config root
        = [root].filter (isNode config) ++ carriers config container := by
          rw [carriers_eq, htree, List.flatMap_singleton]
      _ = [root].filter (isNode config) ++
            ([container].filter (isNode config) ++ carriers config held) := by
          rw [carriers_eq container, hholds, List.flatMap_singleton]
      _ = [root, container].filter (isNode config) ++ carriers config held := by
          rw [← List.append_assoc, ← List.filter_append]
          rfl
  obtain @⟨container, tree, holds, -⟩ | @⟨container, wrapper, tree, wraps, noNode, holds, -⟩ := h
  · exact ⟨container, tree, habove tree holds⟩
  · refine ⟨container, tree, ?_⟩
    rw [habove tree wraps, carriers_of_container noNode, holds, List.flatMap_singleton]

/-- From the top node on no node of a document is lost and none is read twice: the elements with the
qualifier attribute, in the order of the document, and the nodes of the description, in preorder,
describe each other one for one. Above the top node the root and the tree container can carry the
attribute too. They are not read, so all nodes are accounted for if and only if neither does. -/
theorem reads_nodes_below_container {root : Element} {spec : Spec}
    (h : readRoot config root = .ok spec) :
    ∃ container top, root.children = [container] ∧ IsTop config root top ∧
      carriers config root = [root, container].filter (isNode config) ++ carriers config top ∧
      List.Forall₂ (Describes config) (carriers config top) spec.nodes ∧
      (List.Forall₂ (Describes config) (carriers config root) spec.nodes ↔
        isNode config root = false ∧ isNode config container = false) := by
  obtain ⟨top, htop, hdescribes⟩ := readRoot_eq_ok_iff.1 h
  obtain ⟨container, htree, hcarriers⟩ := carriers_of_isTop htop
  have hread := forall₂_carriers hdescribes
  refine ⟨container, top, htree, htop, hcarriers, hread, ?_⟩
  rw [hcarriers]
  constructor
  · intro hall
    -- The nodes of the description are used up by the elements from the top node on.
    have hlength := hall.length_eq
    rw [List.length_append, ← hread.length_eq, Nat.add_eq_right, List.length_eq_zero_iff,
      List.filter_eq_nil_iff] at hlength
    simpa using hlength
  · rintro ⟨hroot, hcontainer⟩
    simpa [hroot, hcontainer] using hread

/-- A node in the place of the root: of two nodes only the one below it is read. -/
theorem reads_nodes_below_container_root_carries :
    ∃ (root : Element) (spec : Spec), readRoot .default root = .ok spec ∧
      (carriers .default root).length = 2 ∧ spec.nodes.length = 1 ∧
      ¬ List.Forall₂ (Describes .default) (carriers .default root) spec.nodes := by
  let attack : Element := ⟨"Node", 1, [⟨none, "Class", "BT.Actions.Attack"⟩], []⟩
  let root : Element :=
    ⟨"Node", 1, [⟨none, "Class", "BT.Actions.Flee"⟩], [⟨"Tree", 1, [], [attack]⟩]⟩
  have hread : readRoot .default root = .ok (.action "Attack") := rfl
  obtain ⟨container, top, -, -, -, -, hall⟩ := reads_nodes_below_container hread
  refine ⟨root, .action "Attack", hread, rfl, rfl, ?_⟩
  intro hforall
  exact Bool.noConfusion (hall.1 hforall).1

end Document

end BehaviorTree
