import BehaviorTree.Load
import BehaviorTree.Proofs.Reading

/-! # The layout of documents

Reading accepts exactly one layout. The root holds one tree container, and the container one
element: the top node, or a wrapper that is no node and holds nothing but the top node
(`Document.IsTop`). Below the top node every node has a qualifier of three segments, and child
elements that are no nodes hold only nodes (`Document.LaidOut`). Whatever else is read is refused
with an error that tells something true of the document (`Document.Explains`). -/

namespace BehaviorTree.Document

open Markup (Element)

/-- The top node of a document. -/
inductive IsTop (config : Config) (root top : Element) : Prop where
  | direct {container : Element} (tree : root.children = [container])
      (holds : container.children = [top]) (node : isNode config top = true)
  | wrapped {container wrapper : Element} (tree : root.children = [container])
      (wraps : container.children = [wrapper]) (container : isNode config wrapper = false)
      (holds : wrapper.children = [top]) (node : isNode config top = true)

/-- A node has a qualifier of three segments joined by dots, and each of its child elements is a
node that is laid out or a container of nothing but such nodes. -/
inductive LaidOut (config : Config) : Element → Prop where
  | node {element : Element} {space category kind : String}
      (qualifier : element.attribute? config.qualifierAttribute =
        some (space ++ "." ++ category ++ "." ++ kind))
      (segments : IsSegment space ∧ IsSegment category ∧ IsSegment kind)
      (containers : ∀ child ∈ element.children, isNode config child = false →
        ∀ held ∈ child.children, isNode config held = true)
      (below : ∀ node ∈ childNodes config element, isNode config node = true →
        LaidOut config node) :
      LaidOut config element

section LaidOut

variable {config : Config} {element : Element}

theorem laidOut_of_describes {spec : Spec} (h : Describes config element spec) :
    LaidOut config element := by
  induction spec using Spec.child_induction generalizing element with
  | step spec ih =>
      obtain ⟨qualifier, segmented, -, children⟩ := h
      apply LaidOut.node qualifier ⟨segmented.space, segmented.category, segmented.kind⟩
      · intro child hchild hcontainer held hheld
        have hnode : held ∈ childNodes config element :=
          mem_childNodes_iff.2 ⟨child, hchild, .inr ⟨hcontainer, hheld⟩⟩
        obtain ⟨below, -, hbelow⟩ := exists_of_forall₂_of_mem children hnode
        exact hbelow.isNode
      · intro node hnode _
        obtain ⟨below, hmem, hbelow⟩ := exists_of_forall₂_of_mem children hnode
        exact ih below hmem hbelow

theorem LaidOut.exists_describes (h : LaidOut config element) :
    ∃ spec, Describes config element spec := by
  induction h with
  | @node element space category kind qualifier segments containers _ ih =>
      have hnodes : ∀ node ∈ childNodes config element, isNode config node = true := by
        intro node hnode
        obtain ⟨child, hchild, ⟨hchildNode, rfl⟩ | ⟨hcontainer, hheld⟩⟩ :=
          mem_childNodes_iff.1 hnode
        · exact hchildNode
        · exact containers child hchild hcontainer node hheld
      obtain ⟨specs, hspecs⟩ := exists_forall₂ fun node hnode => ih node hnode (hnodes node hnode)
      exact ⟨⟨space, category, kind, keptAttributes config element.attributes, specs⟩,
        .node qualifier ⟨segments.1, segments.2.1, segments.2.2⟩ rfl hspecs⟩

end LaidOut

/-! ## Above the nodes -/

/-- The elements that stand at the places above the nodes of a document. -/
inductive StandsAt (config : Config) (root : Element) : Place → Element → Prop where
  | root : StandsAt config root .root root
  | container {container : Element} (tree : root.children = [container]) :
      StandsAt config root .container container
  | nodes {container wrapper : Element} (tree : root.children = [container])
      (wraps : container.children = [wrapper]) (noNode : isNode config wrapper = false) :
      StandsAt config root .nodes wrapper

/-- The error tells something true of a document: an element above the nodes does not hold exactly
one element, or an element where a node has to stand is none or has no proper qualifier. -/
inductive Explains (config : Config) (root : Element) : DocumentError → Prop where
  | noChild {place : Place} {element : Element} (stands : StandsAt config root place element)
      (empty : element.children = []) :
      Explains config root (.noChild place element.name element.line)
  | severalChildren {place : Place} {element : Element}
      (stands : StandsAt config root place element) (several : 2 ≤ element.children.length) :
      Explains config root (.severalChildren place element.name element.line)
  | faults {element : Element} {e : DocumentError} (occurs : element ∈ root.inOrder)
      (faults : Faults config element e) :
      Explains config root e

section ReadRoot

variable {config : Config} {root : Element}

theorem single_eq_ok_iff {place : Place} {element child : Element} :
    single place element = .ok child ↔ element.children = [child] := by
  unfold single
  split
  · simp_all
  · simp_all
  · rename_i hnone hone
    constructor
    · intro h
      cases h
    · intro h
      exact absurd h (hone child)

theorem explains_of_single {place : Place} {element : Element} {e : DocumentError}
    (stands : StandsAt config root place element) (h : single place element = .error e) :
    Explains config root e := by
  unfold single at h
  split at h
  · rename_i hchildren
    cases h
    exact .noChild stands hchildren
  · cases h
  · rename_i hnone hone
    cases h
    apply Explains.severalChildren stands
    match hchildren : element.children with
    | [] => exact absurd hchildren hnone
    | [child] => exact absurd hchildren (hone child)
    | _ :: _ :: _ => simp

theorem readRoot_eq (config : Config) (root : Element) : readRoot config root =
    (single .root root >>= fun container => single .container container >>= fun top =>
      if isNode config top then readNode config top
      else single .nodes top >>= readNode config) := by
  unfold readRoot
  apply bind_congr
  intro container
  apply bind_congr
  intro top
  cases h : qualifier? config top.attributes with
  | none =>
      have hnode : isNode config top = false := isNode_eq_false_iff.2 h
      rw [hnode]
      rfl
  | some text =>
      have hnode : isNode config top = true := isNode_iff.2 ⟨text, h⟩
      rw [hnode]
      rfl

/-- What is read of a document is the description that describes its top node. -/
theorem readRoot_eq_ok_iff {spec : Spec} : readRoot config root = .ok spec ↔
    ∃ top, IsTop config root top ∧ Describes config top spec := by
  simp only [readRoot_eq, bind_ok_iff, single_eq_ok_iff]
  constructor
  · rintro ⟨container, htree, top, htop, h⟩
    cases hnode : isNode config top with
    | true =>
        rw [hnode, if_pos rfl, readNode_eq_ok_iff] at h
        exact ⟨top, .direct htree htop hnode, h⟩
    | false =>
        simp only [hnode, Bool.false_eq_true, if_false, bind_ok_iff, single_eq_ok_iff,
          readNode_eq_ok_iff] at h
        obtain ⟨held, hheld, h⟩ := h
        exact ⟨held, .wrapped htree htop hnode hheld h.isNode, h⟩
  · rintro ⟨top, ⟨htree, htop, hnode⟩ | ⟨htree, hwraps, hwrapper, hholds, -⟩, h⟩
    · refine ⟨_, htree, top, htop, ?_⟩
      rw [hnode, if_pos rfl, readNode_eq_ok_iff]
      exact h
    · refine ⟨_, htree, _, hwraps, ?_⟩
      simp only [hwrapper, Bool.false_eq_true, if_false, bind_ok_iff, single_eq_ok_iff,
        readNode_eq_ok_iff]
      exact ⟨top, hholds, h⟩

/-- An error of a document tells something true of it. -/
theorem explains_of_readRoot {e : DocumentError} (h : readRoot config root = .error e) :
    Explains config root e := by
  simp only [readRoot_eq, bind_error_iff, single_eq_ok_iff] at h
  obtain h | ⟨container, htree, h | ⟨top, htop, h⟩⟩ := h
  · exact explains_of_single .root h
  · exact explains_of_single (.container htree) h
  · have hcontainer : container ∈ root.children := by simp [htree]
    have hmem : top ∈ container.children := by simp [htop]
    have hbelow : ∀ {element}, element ∈ top.inOrder → element ∈ root.inOrder := by
      intro element helement
      apply Element.mem_inOrder_of_mem_children hcontainer
      exact Element.mem_inOrder_of_mem_children hmem helement
    cases hnode : isNode config top with
    | true =>
        rw [hnode, if_pos rfl] at h
        obtain ⟨element, helement, hfaults⟩ := exists_faults_of_readNode h
        exact .faults (hbelow helement) hfaults
    | false =>
        simp only [hnode, Bool.false_eq_true, if_false, bind_error_iff, single_eq_ok_iff] at h
        obtain h | ⟨held, hheld, h⟩ := h
        · exact explains_of_single (.nodes htree htop hnode) h
        · obtain ⟨element, helement, hfaults⟩ := exists_faults_of_readNode h
          have hmem : held ∈ top.children := by simp [hheld]
          exact .faults (hbelow (Element.mem_inOrder_of_mem_children hmem helement)) hfaults

end ReadRoot

/-- Reading accepts exactly the layout of tree documents. A document is read if and only if it has a
top node, and the top node and all nodes below it are laid out; what is read describes the top node:
at every node the three segments of its qualifier and, in order, its child nodes, those in
containers in the place of the container. Every other document is refused as malformed, with an
error that tells something true of it. -/
theorem reads_exactly_layout (config : Config) (root : Element) :
    ((∃ spec, readRoot config root = .ok spec) ↔
        ∃ top, IsTop config root top ∧ LaidOut config top) ∧
      (∀ spec, readRoot config root = .ok spec ↔
        ∃ top, IsTop config root top ∧ Describes config top spec) ∧
      ((¬ ∃ top, IsTop config root top ∧ LaidOut config top) →
        ∃ e, readRoot config root = .error e ∧ Explains config root e) ∧
      ∀ text, Markup.read text = some root → read config text = readRoot config root ∧
        ∀ e, readRoot config root = .error e →
          Tree.ofDocument config text = ([], .error (.malformed e)) := by
  have hreads : (∃ spec, readRoot config root = .ok spec) ↔
      ∃ top, IsTop config root top ∧ LaidOut config top := by
    constructor
    · rintro ⟨spec, h⟩
      obtain ⟨top, htop, hdescribes⟩ := readRoot_eq_ok_iff.1 h
      exact ⟨top, htop, laidOut_of_describes hdescribes⟩
    · rintro ⟨top, htop, hlaidOut⟩
      obtain ⟨spec, hdescribes⟩ := hlaidOut.exists_describes
      exact ⟨spec, readRoot_eq_ok_iff.2 ⟨top, htop, hdescribes⟩⟩
  refine ⟨hreads, fun spec => readRoot_eq_ok_iff, ?_, ?_⟩
  · intro hlayout
    cases h : readRoot config root with
    | ok spec => exact absurd (hreads.1 ⟨spec, h⟩) hlayout
    | error e => exact ⟨e, rfl, explains_of_readRoot h⟩
  · intro text htext
    have hread : read config text = readRoot config root := by
      unfold read
      rw [htext]
    refine ⟨hread, ?_⟩
    intro e h
    unfold Tree.ofDocument
    rw [hread, h]

end BehaviorTree.Document
