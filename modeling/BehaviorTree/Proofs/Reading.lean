import BehaviorTree.Proofs.Position
import BehaviorTree.Proofs.Qualifier
import Mathlib.Data.List.Forall2

/-! # How nodes are read

The child nodes of a node are its child elements that are nodes, and those that its other child
elements hold (`Document.childNodes`). A node is read from its own attributes and from its child
nodes, one after the other (`readNode_eq`), so what is read is described without following the
reader (`Document.Describes`): a description of an element has its three segments, its attributes,
and a description of each of its child nodes in order. An error is about an element of the document.
-/

namespace BehaviorTree

/-! ## Reading a list -/

section Reading

variable {ε α β : Type}

theorem bind_ok_iff {result : Except ε α} {next : α → Except ε β} {b : β} :
    (result >>= next) = .ok b ↔ ∃ a, result = .ok a ∧ next a = .ok b := by
  cases result <;> simp [bind, Except.bind]

theorem bind_error_iff {result : Except ε α} {next : α → Except ε β} {e : ε} :
    (result >>= next) = .error e ↔
      result = .error e ∨ ∃ a, result = .ok a ∧ next a = .error e := by
  cases result <;> simp [bind, Except.bind]

variable {f : α → Except ε β}

theorem mapM_eq_ok_iff {items : List α} {results : List β} : items.mapM f = .ok results ↔
    List.Forall₂ (fun item result => f item = .ok result) items results := by
  induction items generalizing results with
  | nil =>
      rw [List.mapM_nil, List.forall₂_nil_left_iff]
      simp [pure, Except.pure, eq_comm]
  | cons first rest ih =>
      simp only [List.mapM_cons, List.forall₂_cons_left_iff, bind_ok_iff, ih]
      constructor
      · rintro ⟨result, hfirst, others, hrest, heq⟩
        exact ⟨result, others, hfirst, hrest, (Except.ok.inj heq).symm⟩
      · rintro ⟨result, others, hfirst, hrest, rfl⟩
        exact ⟨result, hfirst, others, hrest, rfl⟩

/-- An error of a list is one of its items. -/
theorem exists_of_mapM_eq_error {items : List α} {e : ε} (h : items.mapM f = .error e) :
    ∃ item ∈ items, f item = .error e := by
  induction items with
  | nil => cases h
  | cons first rest ih =>
      simp only [List.mapM_cons, bind_error_iff] at h
      obtain hfirst | ⟨result, -, hrest | ⟨others, -, h⟩⟩ := h
      · exact ⟨first, List.mem_cons_self, hfirst⟩
      · obtain ⟨item, hitem, herror⟩ := ih hrest
        exact ⟨item, List.mem_cons_of_mem _ hitem, herror⟩
      · cases h

end Reading

section Forall₂

variable {α β : Type} {R S : α → β → Prop} {as : List α} {bs : List β}

theorem forall₂_imp_of_mem (h : List.Forall₂ R as bs) (himp : ∀ a ∈ as, ∀ b ∈ bs, R a b → S a b) :
    List.Forall₂ S as bs := by
  rw [List.forall₂_iff_zip] at h ⊢
  refine ⟨h.1, ?_⟩
  intro a b hab
  exact himp a (List.of_mem_zip hab).1 b (List.of_mem_zip hab).2 (h.2 hab)

theorem forall₂_congr_of_mem (h : ∀ a ∈ as, ∀ b ∈ bs, R a b ↔ S a b) :
    List.Forall₂ R as bs ↔ List.Forall₂ S as bs := by
  constructor
  · intro hR
    exact forall₂_imp_of_mem hR fun a ha b hb => (h a ha b hb).1
  · intro hS
    exact forall₂_imp_of_mem hS fun a ha b hb => (h a ha b hb).2

theorem exists_of_forall₂_of_mem (h : List.Forall₂ R as bs) {a : α} (ha : a ∈ as) :
    ∃ b ∈ bs, R a b := by
  induction h with
  | nil => exact absurd ha List.not_mem_nil
  | cons hfirst _ ih =>
      rcases List.mem_cons.1 ha with rfl | ha
      · exact ⟨_, List.mem_cons_self, hfirst⟩
      · obtain ⟨b, hb, hab⟩ := ih ha
        exact ⟨b, List.mem_cons_of_mem _ hb, hab⟩

theorem exists_forall₂ (h : ∀ a ∈ as, ∃ b, R a b) : ∃ bs, List.Forall₂ R as bs := by
  induction as with
  | nil => exact ⟨[], .nil⟩
  | cons first rest ih =>
      obtain ⟨b, hb⟩ := h first List.mem_cons_self
      obtain ⟨bs, hbs⟩ := ih fun a ha => h a (List.mem_cons_of_mem _ ha)
      exact ⟨b :: bs, .cons hb hbs⟩

end Forall₂

/-! ## Elements in the order of the document -/

namespace Markup.Element

mutual

/-- An element and all elements in it, in the order in which they are written. -/
def inOrder : Element → List Element
  | ⟨name, line, attributes, children⟩ =>
      ⟨name, line, attributes, children⟩ :: inOrderAll children

def inOrderAll : List Element → List Element
  | [] => []
  | element :: rest => element.inOrder ++ inOrderAll rest

end

theorem inOrderAll_eq_flatMap (elements : List Element) :
    inOrderAll elements = elements.flatMap inOrder := by
  induction elements with
  | nil => rfl
  | cons element rest ih => rw [inOrderAll, ih, List.flatMap_cons]

theorem inOrder_eq (element : Element) :
    element.inOrder = element :: element.children.flatMap inOrder := by
  obtain ⟨name, line, attributes, children⟩ := element
  rw [inOrder, inOrderAll_eq_flatMap]

theorem self_mem_inOrder (element : Element) : element ∈ element.inOrder := by
  rw [inOrder_eq]
  exact List.mem_cons_self

theorem mem_inOrder_of_mem_children {element child below : Element}
    (hchild : child ∈ element.children) (h : below ∈ child.inOrder) : below ∈ element.inOrder := by
  rw [inOrder_eq]
  exact List.mem_cons_of_mem _ (List.mem_flatMap.2 ⟨child, hchild, h⟩)

mutual

/-- A property that an element has when its child elements have it holds of every element. -/
theorem child_induction {P : Element → Prop}
    (step : ∀ element : Element, (∀ child ∈ element.children, P child) → P element) :
    ∀ element, P element
  | ⟨_, _, _, children⟩ => step _ (child_induction_all step children)

theorem child_induction_all {P : Element → Prop}
    (step : ∀ element : Element, (∀ child ∈ element.children, P child) → P element) :
    ∀ elements : List Element, ∀ child ∈ elements, P child
  | [], _, h => absurd h List.not_mem_nil
  | first :: rest, child, h => by
      rcases List.mem_cons.1 h with heq | h
      · rw [heq]
        exact child_induction step first
      · exact child_induction_all step rest child h

end

end Markup.Element

namespace Document

open Markup (Element)

/-! ## Child nodes -/

/-- Whether an element is a node: whether it has the qualifier attribute. -/
def isNode (config : Config) (element : Element) : Bool :=
  (element.attribute? config.qualifierAttribute).isSome

theorem isNode_iff {config : Config} {element : Element} : isNode config element = true ↔
    ∃ text, element.attribute? config.qualifierAttribute = some text :=
  Option.isSome_iff_exists

theorem isNode_eq_false_iff {config : Config} {element : Element} :
    isNode config element = false ↔ element.attribute? config.qualifierAttribute = none := by
  rw [isNode, Option.isSome_eq_false_iff, Option.isNone_iff_eq_none]

/-- The elements in the place of a child element: itself if it is a node, or what it holds. -/
def lookThrough (config : Config) (child : Element) : List Element :=
  if isNode config child then [child] else child.children

/-- The elements that a node has as its child nodes. -/
def childNodes (config : Config) (element : Element) : List Element :=
  element.children.flatMap (lookThrough config)

/-- A child node is a child element or in one. -/
theorem mem_childNodes_iff {config : Config} {element node : Element} :
    node ∈ childNodes config element ↔ ∃ child ∈ element.children,
      isNode config child = true ∧ node = child ∨
        isNode config child = false ∧ node ∈ child.children := by
  unfold childNodes lookThrough
  rw [List.mem_flatMap]
  apply exists_congr
  intro child
  cases isNode config child <;> simp

/-- What passes from the child nodes of an element to the element holds of every element. -/
theorem node_induction (config : Config) {P : Element → Prop}
    (step : ∀ element : Element, (∀ node ∈ childNodes config element, P node) → P element)
    (element : Element) : P element := by
  -- Child nodes can stand two levels down, so the induction takes two levels at once.
  suffices h : P element ∧ ∀ child ∈ element.children, P child from h.1
  induction element using Element.child_induction with
  | step element ih =>
      refine ⟨step element ?_, fun child hchild => (ih child hchild).1⟩
      intro node hnode
      obtain ⟨child, hchild, ⟨-, rfl⟩ | ⟨-, hnode⟩⟩ := mem_childNodes_iff.1 hnode
      · exact (ih node hchild).1
      · exact (ih child hchild).2 node hnode

theorem inOrder_of_mem_childNodes {config : Config} {element node below : Element}
    (hnode : node ∈ childNodes config element) (h : below ∈ node.inOrder) :
    below ∈ element.inOrder := by
  obtain ⟨child, hchild, ⟨-, rfl⟩ | ⟨-, hnode⟩⟩ := mem_childNodes_iff.1 hnode
  · exact Element.mem_inOrder_of_mem_children hchild h
  · exact Element.mem_inOrder_of_mem_children hchild
      (Element.mem_inOrder_of_mem_children hnode h)

/-! ## The reader, node by node -/

theorem readNodes_eq_mapM (config : Config) (elements : List Element) :
    readNodes config elements = elements.mapM (readNode config) := by
  induction elements with
  | nil => rfl
  | cons element rest ih =>
      rw [readNodes, ih, List.mapM_cons]

theorem readChild_eq_mapM (config : Config) (child : Element) :
    readChild config child = (lookThrough config child).mapM (readNode config) := by
  obtain ⟨name, line, attributes, children⟩ := child
  rw [readChild, lookThrough]
  cases h : qualifier? config attributes with
  | none =>
      have hnode : isNode config ⟨name, line, attributes, children⟩ = false :=
        isNode_eq_false_iff.2 h
      rw [hnode]
      exact readNodes_eq_mapM config children
  | some text =>
      have hnode : isNode config ⟨name, line, attributes, children⟩ = true :=
        isNode_iff.2 ⟨text, h⟩
      rw [hnode, if_pos rfl, List.mapM_cons, List.mapM_nil, readNode, h]
      rfl

theorem readChildren_eq_mapM (config : Config) (children : List Element) :
    readChildren config children =
      (children.flatMap (lookThrough config)).mapM (readNode config) := by
  induction children with
  | nil => rfl
  | cons child rest ih =>
      rw [readChildren, List.flatMap_cons, List.mapM_append, readChild_eq_mapM, ih]

/-- A node is read from its attributes and from its child nodes in order. -/
theorem readNode_eq (config : Config) (element : Element) :
    readNode config element = match element.attribute? config.qualifierAttribute with
      | none => .error (.notNode element.name element.line config.qualifierAttribute)
      | some text => describe config element.line element.attributes text
          ((childNodes config element).mapM (readNode config)) := by
  obtain ⟨name, line, attributes, children⟩ := element
  rw [readNode, readChildren_eq_mapM]
  rfl

/-! ## Descriptions of elements -/

/-- A description describes an element. Its qualifier, of three segments, is the text of the
qualifier attribute, its attributes are the kept ones, and its children describe the child nodes of
the element in order. -/
inductive Describes (config : Config) : Element → Spec → Prop where
  | node {element : Element} {spec : Spec}
      (qualifier : element.attribute? config.qualifierAttribute = some spec.qualifier)
      (segmented : spec.Segmented)
      (attributes : spec.attributes = keptAttributes config element.attributes)
      (children : List.Forall₂ (Describes config) (childNodes config element) spec.children) :
      Describes config element spec

variable {config : Config} {element : Element} {spec : Spec}

theorem Describes.isNode (h : Describes config element spec) : isNode config element = true := by
  cases h with
  | node qualifier segmented attributes children => exact isNode_iff.2 ⟨_, qualifier⟩

theorem describe_eq_ok_iff {line : Nat} {attributes : List Markup.Attribute} {text : String}
    {children : Except DocumentError (List Spec)} :
    describe config line attributes text children = .ok spec ↔
      (spec.Segmented ∧ text = spec.qualifier) ∧
        spec.attributes = keptAttributes config attributes ∧ children = .ok spec.children := by
  obtain ⟨space, category, kind, kept, specs⟩ := spec
  rw [← Spec.splitQualifier?_eq_some_iff]
  unfold describe
  cases splitQualifier? text with
  | none => simp
  | some segments =>
      obtain ⟨space', category', kind'⟩ := segments
      cases children with
      | error e => simp [bind, Except.bind]
      | ok specs' =>
          simp [bind, Except.bind, pure, Except.pure, and_assoc, eq_comm]

theorem readNode_eq_ok_iff_forall₂ : readNode config element = .ok spec ↔
    element.attribute? config.qualifierAttribute = some spec.qualifier ∧ spec.Segmented ∧
      spec.attributes = keptAttributes config element.attributes ∧
      List.Forall₂ (fun node child => readNode config node = .ok child)
        (childNodes config element) spec.children := by
  rw [readNode_eq, ← mapM_eq_ok_iff]
  cases element.attribute? config.qualifierAttribute with
  | none => simp
  | some text =>
      dsimp only
      rw [describe_eq_ok_iff, Option.some.injEq, and_assoc, and_left_comm]

/-- What is read of an element is the description that describes it. -/
theorem readNode_eq_ok_iff :
    readNode config element = .ok spec ↔ Describes config element spec := by
  induction spec using Spec.child_induction generalizing element with
  | step spec ih =>
      have hchildren : List.Forall₂ (fun node child => readNode config node = .ok child)
            (childNodes config element) spec.children ↔
          List.Forall₂ (Describes config) (childNodes config element) spec.children := by
        apply forall₂_congr_of_mem
        intro node _ child hchild
        exact ih child hchild
      rw [readNode_eq_ok_iff_forall₂, hchildren]
      constructor
      · rintro ⟨qualifier, segmented, attributes, children⟩
        exact .node qualifier segmented attributes children
      · rintro ⟨qualifier, segmented, attributes, children⟩
        exact ⟨qualifier, segmented, attributes, children⟩

/-! ## Errors -/

/-- What an error says of an element below the top of a document is true of it: it is not a node, or
its qualifier cannot be split. -/
inductive Faults (config : Config) (element : Element) : DocumentError → Prop where
  | notNode (missing : isNode config element = false) :
      Faults config element (.notNode element.name element.line config.qualifierAttribute)
  | badQualifier {text : String}
      (given : element.attribute? config.qualifierAttribute = some text)
      (unsegmented : ∀ spec : Spec, spec.Segmented → text ≠ spec.qualifier) :
      Faults config element (.badQualifier text element.line)

theorem of_describe_eq_error {line : Nat} {attributes : List Markup.Attribute} {text : String}
    {children : Except DocumentError (List Spec)} {e : DocumentError}
    (h : describe config line attributes text children = .error e) :
    (splitQualifier? text = none ∧ e = .badQualifier text line) ∨ children = .error e := by
  unfold describe at h
  cases hsplit : splitQualifier? text with
  | none =>
      rw [hsplit] at h
      cases h
      exact .inl ⟨rfl, rfl⟩
  | some segments =>
      obtain ⟨space, category, kind⟩ := segments
      simp only [hsplit, bind_error_iff] at h
      obtain h | ⟨specs, -, h⟩ := h
      · exact .inr h
      · cases h

/-- An error of a node is about the node or about an element in it. -/
theorem exists_faults_of_readNode {e : DocumentError} (h : readNode config element = .error e) :
    ∃ below ∈ element.inOrder, Faults config below e := by
  induction element using node_induction config with
  | step element ih =>
      rw [readNode_eq] at h
      cases hqualifier : element.attribute? config.qualifierAttribute with
      | none =>
          rw [hqualifier] at h
          cases h
          exact ⟨element, element.self_mem_inOrder, .notNode (isNode_eq_false_iff.2 hqualifier)⟩
      | some text =>
          rw [hqualifier] at h
          obtain ⟨hsplit, rfl⟩ | hchildren := of_describe_eq_error h
          · refine ⟨element, element.self_mem_inOrder, .badQualifier hqualifier ?_⟩
            intro spec hsegmented htext
            rw [Spec.splitQualifier?_eq_some_iff.2 ⟨hsegmented, htext⟩] at hsplit
            cases hsplit
          · obtain ⟨node, hnode, herror⟩ := exists_of_mapM_eq_error hchildren
            obtain ⟨below, hbelow, hfaults⟩ := ih node hnode herror
            exact ⟨below, inOrder_of_mem_childNodes hnode hbelow, hfaults⟩

end Document

end BehaviorTree
