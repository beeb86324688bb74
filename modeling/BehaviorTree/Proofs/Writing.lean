import BehaviorTree.Proofs.Layout
import BehaviorTree.Proofs.Names

/-! # Descriptions laid out as documents

A description is written as an element with its qualifier and its attributes, in any order, over
elements for its children. These stand in the element in order, each directly or in some container,
and there may be containers of nothing (`Document.Grouped`). The names and lines of elements are
free. Reading such a document gives back the description, so the document gives the tree that
compiling the description gives. -/

namespace BehaviorTree

open Markup (Attribute Element)

/-- A description that can be written: segments that can be told apart, and no attribute named like
the qualifier attribute, at every node. -/
inductive Spec.Writable (config : Config) : Spec → Prop where
  | node {spec : Spec} (segmented : spec.Segmented)
      (free : config.qualifierAttribute ∉ spec.attributes.names)
      (children : ∀ child ∈ spec.children, Writable config child) : Writable config spec

namespace Document

/-- The attributes of an element that is written for a description. -/
def writtenAttributes (config : Config) (spec : Spec) : List Attribute :=
  ⟨none, config.qualifierAttribute, spec.qualifier⟩ ::
    spec.attributes.entries.map fun entry => ⟨none, entry.1, entry.2⟩

/-- The elements hold the nodes in order, some of them directly and some in containers. -/
inductive Grouped (config : Config) : List Element → List Element → Prop where
  | nil : Grouped config [] []
  | direct {node : Element} {nodes elements : List Element} (rest : Grouped config nodes elements) :
      Grouped config (node :: nodes) (node :: elements)
  | container {container : Element} {nodes elements : List Element}
      (noNode : isNode config container = false) (rest : Grouped config nodes elements) :
      Grouped config (container.children ++ nodes) (container :: elements)

/-- An element is written for a description. -/
inductive Writes (config : Config) : Spec → Element → Prop where
  | node {spec : Spec} {element : Element} {nodes : List Element}
      (attributes : element.attributes.Perm (writtenAttributes config spec))
      (written : List.Forall₂ (Writes config) spec.children nodes)
      (grouped : Grouped config nodes element.children) : Writes config spec element

/-- A document lays out a description: its top node is written for it, and what stands above the top
node is no node. -/
structure LaysOut (config : Config) (spec : Spec) (root : Element) : Prop where
  top : ∃ top, IsTop config root top ∧ Writes config spec top
  noNode : isNode config root = false
  noNodes : ∀ container ∈ root.children, isNode config container = false

section Attributes

variable {config : Config} {spec : Spec} {attributes : List Attribute}

theorem isSome_qualifier?_of_perm (h : attributes.Perm (writtenAttributes config spec)) :
    (qualifier? config attributes).isSome = true := by
  unfold qualifier?
  rw [Option.isSome_map, List.find?_isSome]
  exact ⟨_, h.mem_iff.2 List.mem_cons_self, by simp⟩

theorem qualifier?_of_perm (h : attributes.Perm (writtenAttributes config spec))
    (hfree : config.qualifierAttribute ∉ spec.attributes.names) :
    qualifier? config attributes = some spec.qualifier := by
  obtain ⟨text, htext⟩ := Option.isSome_iff_exists.1 (isSome_qualifier?_of_perm h)
  obtain ⟨a, hfound, rfl⟩ := Option.map_eq_some_iff.1 htext
  rw [htext]
  rcases List.mem_cons.1 (h.mem_iff.1 (List.mem_of_find?_eq_some hfound)) with rfl | hmem
  · rfl
  · -- Any other attribute with this name would be one of the description.
    obtain ⟨entry, hentry, rfl⟩ := List.mem_map.1 hmem
    have heq : entry.1 = config.qualifierAttribute := by simpa using List.find?_some hfound
    exact absurd (heq ▸ List.mem_map_of_mem hentry) hfree

theorem keptAttributes_of_perm (h : attributes.Perm (writtenAttributes config spec))
    (hfree : config.qualifierAttribute ∉ spec.attributes.names) :
    keptAttributes config attributes = spec.attributes := by
  apply NameMap.ofList_of_perm
  have hkept : (writtenAttributes config spec).filter (·.name != config.qualifierAttribute) =
      spec.attributes.entries.map fun entry => ⟨none, entry.1, entry.2⟩ := by
    rw [writtenAttributes, List.filter_cons_of_neg (by simp)]
    apply List.filter_eq_self.2
    intro a ha
    obtain ⟨entry, hentry, rfl⟩ := List.mem_map.1 ha
    have hne : entry.1 ≠ config.qualifierAttribute := by
      intro heq
      exact hfree (heq ▸ List.mem_map_of_mem hentry)
    simpa using hne
  have hperm := (h.filter (·.name != config.qualifierAttribute)).map fun a => (a.name, a.value)
  rw [hkept, List.map_map] at hperm
  simpa [Function.comp_def] using hperm

end Attributes

/-- Looking through the containers gives back the nodes. -/
theorem Grouped.flatMap_lookThrough {config : Config} {nodes elements : List Element}
    (h : Grouped config nodes elements) (hnodes : ∀ node ∈ nodes, isNode config node = true) :
    elements.flatMap (lookThrough config) = nodes := by
  induction h with
  | nil => rfl
  | @direct node nodes elements _ ih =>
      obtain ⟨hnode, hrest⟩ := List.forall_mem_cons.1 hnodes
      rw [List.flatMap_cons, ih hrest, lookThrough, if_pos hnode, List.singleton_append]
  | @container container nodes elements noNode _ ih =>
      have hrest : ∀ node ∈ nodes, isNode config node = true := by
        intro node hnode
        exact hnodes node (List.mem_append_right _ hnode)
      rw [List.flatMap_cons, ih hrest, lookThrough, if_neg (by simp [noNode])]

theorem grouped_self (config : Config) (nodes : List Element) : Grouped config nodes nodes := by
  induction nodes with
  | nil => exact .nil
  | cons node nodes ih => exact .direct ih

section Writes

variable {config : Config} {spec : Spec}

theorem Writes.isNode {element : Element} (h : Writes config spec element) :
    isNode config element = true := by
  obtain ⟨attributes, -, -⟩ := h
  exact isSome_qualifier?_of_perm attributes

/-- What an element is written for describes it. -/
theorem Writes.describes {element : Element} (h : Writes config spec element)
    (hwritable : spec.Writable config) : Describes config element spec := by
  induction spec using Spec.child_induction generalizing element with
  | step spec ih =>
      obtain @⟨_, _, nodes, attributes, written, grouped⟩ := h
      obtain ⟨segmented, free, children⟩ := hwritable
      have hdescribes : List.Forall₂ (Describes config) nodes spec.children := by
        apply forall₂_imp_of_mem written.flip
        intro node _ child hchild hwrites
        exact ih child hchild hwrites (children child hchild)
      have hchildNodes : childNodes config element = nodes := by
        apply grouped.flatMap_lookThrough
        intro node hnode
        obtain ⟨child, -, hwrites⟩ := exists_of_forall₂_of_mem written.flip hnode
        exact hwrites.isNode
      apply Describes.node
      · exact qualifier?_of_perm attributes free
      · exact segmented
      · exact (keptAttributes_of_perm attributes free).symm
      · rw [hchildNodes]
        exact hdescribes

theorem LaysOut.readRoot {root : Element} (h : LaysOut config spec root)
    (hwritable : spec.Writable config) : readRoot config root = .ok spec := by
  obtain ⟨top, htop, hwrites⟩ := h.top
  exact readRoot_eq_ok_iff.2 ⟨top, htop, hwrites.describes hwritable⟩

theorem exists_writes (config : Config) (spec : Spec) :
    ∃ element, Writes config spec element := by
  induction spec using Spec.child_induction with
  | step spec ih =>
      obtain ⟨nodes, hnodes⟩ := exists_forall₂ ih
      exact ⟨⟨"Node", 1, writtenAttributes config spec, nodes⟩,
        .node (.refl _) hnodes (grouped_self config nodes)⟩

theorem exists_laysOut (config : Config) (spec : Spec) : ∃ root, LaysOut config spec root := by
  obtain ⟨top, hwrites⟩ := exists_writes config spec
  let container : Element := ⟨"BehaviorTree", 1, [], [top]⟩
  refine ⟨⟨"Document", 1, [], [container]⟩, ⟨top, .direct rfl rfl hwrites.isNode, hwrites⟩, rfl, ?_⟩
  intro other hother
  obtain rfl : other = container := List.mem_singleton.1 hother
  rfl

end Writes

/-- Reading undoes writing. A description that can be written is what is read of every document that
lays it out, however its nodes are grouped, and such a document gives the same tree or the same
error as the description itself. -/
theorem reads_back_layouts {config : Config} {spec : Spec} (hwritable : spec.Writable config) :
    (∃ root, LaysOut config spec root) ∧ ∀ root, LaysOut config spec root →
      readRoot config root = .ok spec ∧
      ∀ text, Markup.read text = some root →
        read config text = .ok spec ∧ Tree.ofDocument config text = Tree.ofSpec config spec := by
  refine ⟨exists_laysOut config spec, ?_⟩
  intro root hroot
  have hreadRoot : readRoot config root = .ok spec := hroot.readRoot hwritable
  refine ⟨hreadRoot, ?_⟩
  intro text htext
  have hread : read config text = .ok spec := by
    unfold read
    rw [htext]
    exact hreadRoot
  refine ⟨hread, ?_⟩
  unfold Tree.ofDocument
  rw [hread]

/-- A sequence with one child directly in it and two in a container, after a container of nothing.
-/
theorem reads_back_layouts_mixed :
    ∃ (spec : Spec) (root : Element), spec.Writable .default ∧ LaysOut .default spec root ∧
      readRoot .default root = .ok spec := by
  let target : Spec := .condition "HasTarget"
  let attack : Spec := (Spec.action "Attack").withAttribute "Damage" "3"
  let flee : Spec := .action "Flee"
  let spec : Spec := (Spec.composite "Sequence").withChildren [target, attack, flee]
  let targetElement : Element := ⟨"Node", 1, [⟨none, "Class", "BT.Conditions.HasTarget"⟩], []⟩
  let attackElement : Element :=
    ⟨"Node", 1, [⟨none, "Damage", "3"⟩, ⟨none, "Class", "BT.Actions.Attack"⟩], []⟩
  let fleeElement : Element := ⟨"Node", 1, [⟨none, "Class", "BT.Actions.Flee"⟩], []⟩
  let empty : Element := ⟨"Empty", 1, [], []⟩
  let children : Element := ⟨"Children", 1, [], [attackElement, fleeElement]⟩
  let top : Element := ⟨"Node", 1, [⟨none, "Class", "BT.Composites.Sequence"⟩],
    [empty, targetElement, children]⟩
  let container : Element := ⟨"BehaviorTree", 1, [], [⟨"Nodes", 1, [], [top]⟩]⟩
  let root : Element := ⟨"Document", 1, [], [container]⟩
  have hwritable : spec.Writable .default := by
    apply Spec.Writable.node (by decide) (by decide)
    show ∀ leaf ∈ [target, attack, flee], leaf.Writable .default
    simp only [List.forall_mem_cons]
    refine ⟨?_, ?_, ?_, List.forall_mem_nil _⟩ <;>
      exact .node (by decide) (by decide) (List.forall_mem_nil _)
  have hleaves : List.Forall₂ (Writes .default) [target, attack, flee]
      [targetElement, attackElement, fleeElement] := by
    refine .cons ?_ (.cons ?_ (.cons ?_ .nil)) <;> exact .node (by decide) .nil .nil
  have hgrouped : Grouped .default [targetElement, attackElement, fleeElement] top.children := by
    have hchildren : Grouped .default [attackElement, fleeElement] [children] :=
      @Grouped.container _ children [] [] rfl .nil
    exact @Grouped.container _ empty _ _ rfl (.direct hchildren)
  have hlaysOut : LaysOut .default spec root := by
    refine ⟨⟨top, .wrapped rfl rfl rfl rfl rfl, .node (by decide) hleaves hgrouped⟩, rfl, ?_⟩
    intro other hother
    obtain rfl : other = container := List.mem_singleton.1 hother
    rfl
  have hread : readRoot .default root = .ok spec :=
    ((reads_back_layouts hwritable).2 root hlaysOut).1
  exact ⟨spec, root, hwritable, hlaysOut, hread⟩

end Document

end BehaviorTree
