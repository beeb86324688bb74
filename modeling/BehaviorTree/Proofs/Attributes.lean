import BehaviorTree.Proofs.Carriers
import BehaviorTree.Proofs.Names

/-! # The attributes that a node keeps

A document tells the attributes of an element apart by namespace and name, and no tag repeats one
(`Markup.apart_of_read`). A description knows attributes by their names alone. So for every name but
that of the qualifier attribute it has the last attribute with this name, and it has all attributes
besides the qualifier exactly when no two attributes of the element share a name
(`Document.Keeps`). -/

namespace BehaviorTree

namespace Markup

/-! ## Attributes of a document -/

/-- No two attributes have the same namespace and name. -/
def Apart (attributes : List Attribute) : Prop :=
  attributes.Pairwise fun a b => a.space = b.space → a.name ≠ b.name

theorem hasRepetition_eq_false_iff {attributes : List Attribute} :
    hasRepetition attributes = false ↔ Apart attributes := by
  induction attributes with
  | nil => simp [hasRepetition, Apart]
  | cons a rest ih =>
      rw [hasRepetition, Bool.or_eq_false_iff, ih, Apart, Apart, List.pairwise_cons,
        List.any_eq_false]
      simp

/-- In an element and in all elements in it the attributes are told apart. -/
def Element.Apart (element : Element) : Prop :=
  ∀ below ∈ element.inOrder, Markup.Apart below.attributes

/-- What is known of an element whose end has not been read. -/
structure Opened.Apart (opened : Opened) : Prop where
  own : Markup.Apart opened.attributes
  children : ∀ child ∈ opened.children, child.Apart

theorem Opened.Apart.element {opened : Opened} (h : opened.Apart) : opened.element.Apart := by
  intro below hbelow
  rw [Element.inOrder_eq] at hbelow
  rcases List.mem_cons.1 hbelow with rfl | hbelow
  · exact h.own
  · obtain ⟨child, hchild, hbelow⟩ := List.mem_flatMap.1 hbelow
    exact h.children child (List.mem_reverse.1 hchild) below hbelow

theorem Opened.Apart.push {opened : Opened} (h : opened.Apart) {child : Element}
    (hchild : child.Apart) :
    Opened.Apart { opened with children := child :: opened.children } :=
  ⟨h.own, List.forall_mem_cons.2 ⟨hchild, h.children⟩⟩

/-- A tag that repeats an attribute is refused. -/
theorem apart_of_attributesIn {scope inner : Scope} {name : TagName}
    {written : List (TagName × String)} {attributes : List Attribute}
    (h : attributesIn scope name written = some (attributes, inner)) : Apart attributes := by
  apply hasRepetition_eq_false_iff.1
  simp only [attributesIn, Option.bind_eq_bind, Option.bind_none, Option.ite_none_left_eq_some,
    Option.bind_eq_some_iff, Option.pure_def, Option.some.injEq, Prod.mk.injEq] at h
  obtain ⟨-, _, -, -, _, -, hrepeats, rfl, -⟩ := h
  simpa using hrepeats

/-- A tag that is not refused opens an element whose attributes are told apart. -/
theorem exists_apart_of_bind {around : Scope} {tag : TagName} {written : List (TagName × String)}
    {next : List Attribute × Scope → Option Element} {result : Element} (line : Nat)
    (h : (attributesIn around tag written >>= next) = some result) :
    ∃ attributes scope, Opened.Apart ⟨tag, line, attributes, scope, []⟩ ∧
      next (attributes, scope) = some result := by
  obtain ⟨⟨attributes, scope⟩, hattributes, h⟩ := Option.bind_eq_some_iff.1 h
  exact ⟨attributes, scope, ⟨apart_of_attributesIn hattributes, List.forall_mem_nil _⟩, h⟩

/-- Tokens nest to an element in which attributes are told apart. -/
theorem apart_of_nest {opened : List Opened} {root : Option Element} {tokens : List (Token × Nat)}
    {result : Element} (h : nest opened root tokens = some result)
    (hopened : ∀ element ∈ opened, element.Apart) (hroot : ∀ element ∈ root, element.Apart) :
    result.Apart := by
  -- Each token leaves what is open told apart, and the root once it is complete.
  fun_induction nest opened root tokens with
  | case1 => exact hroot result h
  | case2 | case5 | case7 | case9 | case12 | case13 => cases h
  | case3 _ _ _ _ ih | case4 _ _ _ ih | case6 _ _ _ _ _ _ ih | case8 _ _ _ _ _ ih =>
      exact ih h hopened hroot
  | case10 inner root _ rest ih =>
      -- The outermost element ends.
      apply ih h (List.forall_mem_nil _)
      rintro element ⟨⟩
      exact (List.forall_mem_singleton.1 hopened).element
  | case11 inner root _ rest parent outer ih =>
      -- An element ends, and is one more child of the element around it.
      obtain ⟨hinner, hparent, houter⟩ := by simpa only [List.forall_mem_cons] using hopened
      exact ih h (List.forall_mem_cons.2 ⟨hparent.push hinner.element, houter⟩) hroot
  | case14 name written closed line rest ihClosed ihOpen =>
      obtain ⟨attributes, scope, hinner, h⟩ := exists_apart_of_bind line h
      dsimp only at h
      split at h
      · apply ihClosed attributes scope h hopened
        rintro element ⟨⟩
        exact hinner.element
      · exact ihOpen attributes scope h (List.forall_mem_singleton.2 hinner) hroot
  | case15 parent outer root name written closed line rest ihClosed ihOpen =>
      obtain ⟨attributes, scope, hinner, h⟩ := exists_apart_of_bind line h
      dsimp only at h
      obtain ⟨hparent, houter⟩ := List.forall_mem_cons.1 hopened
      split at h
      · exact ihClosed attributes scope h
          (List.forall_mem_cons.2 ⟨hparent.push hinner.element, houter⟩) hroot
      · exact ihOpen attributes scope h (List.forall_mem_cons.2 ⟨hinner, hopened⟩) hroot

/-- The attributes of a document are told apart. -/
theorem apart_of_read {text : String} {root : Element} (h : read text = some root) :
    root.Apart := by
  simp only [read, Option.bind_eq_bind, Option.bind_none, Option.ite_none_left_eq_some,
    Option.bind_eq_some_iff] at h
  obtain ⟨-, -, -, tokens, -, h⟩ := h
  apply apart_of_nest h (List.forall_mem_nil _)
  rintro element ⟨⟩

end Markup

namespace Document

open Markup (Attribute Element)

variable {config : Config} {element : Element}

/-! ## Attributes of a description -/

/-- The attributes of an element besides the qualifier attribute. -/
def otherAttributes (config : Config) (attributes : List Attribute) : List Attribute :=
  attributes.filter fun a => ¬ (a.space = none ∧ a.name = config.qualifierAttribute)

/-- A description has all attributes of an element besides the qualifier attribute, each in an entry
of its own, and no others. -/
def KeepsAll (config : Config) (element : Element) (spec : Spec) : Prop :=
  spec.attributes.entries.Perm
    ((otherAttributes config element.attributes).map fun a => (a.name, a.value))

/-- What the description of an element keeps of its attributes. -/
structure Keeps (config : Config) (element : Element) (spec : Spec) : Prop where
  describes : Describes config element spec
  apart : Markup.Apart element.attributes
  last : ∀ name, spec.attributes.get? name =
    if name = config.qualifierAttribute then none
    else (element.attributes.reverse.find? (·.name == name)).map (·.value)
  all : KeepsAll config element spec ↔ (element.attributes.map (·.name)).Nodup

theorem lookup_map_eq_find? (attributes : List Attribute) (name : String) :
    (attributes.map fun a => (a.name, a.value)).lookup name =
      (attributes.find? (·.name == name)).map (·.value) := by
  induction attributes with
  | nil => rfl
  | cons a rest ih =>
      rw [List.map_cons, List.lookup_cons, List.find?_cons, ih, BEq.comm]
      cases a.name == name <;> rfl

/-- Of each name the last attribute is kept, but none with the name of the qualifier attribute. -/
theorem get?_keptAttributes (attributes : List Attribute) (name : String) :
    (keptAttributes config attributes).get? name =
      if name = config.qualifierAttribute then none
      else (attributes.reverse.find? (·.name == name)).map (·.value) := by
  rw [keptAttributes, NameMap.get?_ofList, ← List.map_reverse, lookup_map_eq_find?,
    ← List.filter_reverse, List.find?_filter]
  by_cases hname : name = config.qualifierAttribute
  · rw [if_pos hname, Option.map_eq_none_iff, List.find?_eq_none]
    intro a _
    simp [hname]
  · rw [if_neg hname]
    congr 2
    funext a
    by_cases ha : a.name = name <;> simp [ha, hname]

/-- An element with the qualifier attribute has it once. -/
theorem exists_perm_otherAttributes (hnode : isNode config element = true)
    (hapart : Markup.Apart element.attributes) :
    ∃ qualifier : Attribute, qualifier.name = config.qualifierAttribute ∧
      element.attributes.Perm (qualifier :: otherAttributes config element.attributes) := by
  obtain ⟨text, htext⟩ := isNode_iff.1 hnode
  obtain ⟨qualifier, hfound, -⟩ := Option.map_eq_some_iff.1 htext
  obtain ⟨hqualifier, before, after, hsplit, hbefore⟩ := List.find?_eq_some_iff_append.1 hfound
  obtain ⟨hspace, hname⟩ : qualifier.space = none ∧ qualifier.name = config.qualifierAttribute := by
    simpa using hqualifier
  rw [Markup.Apart, hsplit, List.pairwise_append, List.pairwise_cons] at hapart
  have hothersBefore : otherAttributes config before = before := by
    apply List.filter_eq_self.2
    intro a ha
    simpa [← Option.isSome_iff_ne_none] using hbefore a ha
  have hothersAfter : otherAttributes config after = after := by
    apply List.filter_eq_self.2
    intro a ha
    rw [decide_eq_true_eq]
    rintro ⟨haSpace, haName⟩
    exact hapart.2.1.1 a ha (hspace.trans haSpace.symm) (hname.trans haName.symm)
  have hothers : otherAttributes config element.attributes = before ++ after := by
    calc otherAttributes config element.attributes
        = otherAttributes config before ++ otherAttributes config (qualifier :: after) := by
          rw [hsplit, otherAttributes, List.filter_append]
          rfl
      _ = otherAttributes config before ++ otherAttributes config after := by
          rw [otherAttributes, otherAttributes, List.filter_cons_of_neg (by simp [hspace, hname])]
          rfl
      _ = before ++ after := by rw [hothersBefore, hothersAfter]
  refine ⟨qualifier, hname, ?_⟩
  rw [hothers, hsplit]
  exact List.perm_middle

/-- A description has all attributes of its element exactly when their names tell them apart. -/
theorem keepsAll_iff {spec : Spec} (hdescribes : Describes config element spec)
    (hapart : Markup.Apart element.attributes) :
    KeepsAll config element spec ↔ (element.attributes.map (·.name)).Nodup := by
  obtain ⟨qualifier, hname, hperm⟩ := exists_perm_otherAttributes hdescribes.isNode hapart
  obtain ⟨-, -, attributes, -⟩ := hdescribes
  rw [KeepsAll, attributes, (hperm.map (·.name)).nodup_iff, List.map_cons, List.nodup_cons, hname]
  generalize otherAttributes config element.attributes = others at hperm ⊢
  constructor
  · intro hkept
    have hnames : (keptAttributes config element.attributes).names.Perm
        (others.map (·.name)) := by
      simpa [NameMap.names, Function.comp_def] using hkept.map (·.1)
    constructor
    · rw [← hnames.mem_iff, NameMap.mem_names_iff, NameMap.contains, get?_keptAttributes,
        if_pos rfl]
      exact Bool.false_ne_true
    · exact hnames.nodup_iff.1 (NameMap.nodup_names _)
  · rintro ⟨hfree, hnodup⟩
    have hfilter : (element.attributes.filter (·.name != config.qualifierAttribute)).Perm
        others := by
      have hself : others.filter (·.name != config.qualifierAttribute) = others := by
        apply List.filter_eq_self.2
        intro a ha
        rw [bne_iff_ne]
        rintro heq
        exact hfree (heq ▸ List.mem_map_of_mem ha)
      have hkept := hperm.filter (·.name != config.qualifierAttribute)
      rwa [List.filter_cons_of_neg (by simp [hname]), hself] at hkept
    apply (NameMap.perm_entries_ofList _).trans (hfilter.map _)
    rw [List.map_map]
    exact (hfilter.map _).nodup_iff.2 hnodup

theorem keeps_of_describes {spec : Spec} (hdescribes : Describes config element spec)
    (hapart : Markup.Apart element.attributes) : Keeps config element spec := by
  refine ⟨hdescribes, hapart, ?_, keepsAll_iff hdescribes hapart⟩
  obtain ⟨-, -, attributes, -⟩ := hdescribes
  rw [attributes]
  exact get?_keptAttributes element.attributes

theorem mem_carriers_of_isTop {root top : Element} (htop : IsTop config root top)
    (h : element ∈ carriers config top) : element ∈ carriers config root := by
  obtain ⟨container, -, hcarriers⟩ := carriers_of_isTop htop
  rw [hcarriers]
  exact List.mem_append_right _ h

/-- From the top node on the nodes of a description keep, of the attributes of their elements, the
last one of each name, and none with the name of the qualifier attribute. A document tells
attributes apart by namespace and name. So no attribute of an element is lost exactly when all its
attributes differ in name: one that only its namespace tells from a later one is overwritten, and
one that is named like the qualifier attribute, but in a namespace, is taken for it and dropped. -/
theorem keeps_last_attribute_of_each_name {text : String} {spec : Spec}
    (h : read config text = .ok spec) :
    ∃ root top, Markup.read text = some root ∧ IsTop config root top ∧
      List.Forall₂ (Keeps config) (carriers config top) spec.nodes := by
  unfold read at h
  split at h
  · cases h
  · rename_i root hroot
    obtain ⟨top, htop, hdescribes⟩ := readRoot_eq_ok_iff.1 h
    refine ⟨root, top, hroot, htop, ?_⟩
    apply forall₂_imp_of_mem (forall₂_carriers hdescribes)
    intro element helement node _ hdescribes
    have hmem := mem_carriers_of_isTop htop helement
    exact keeps_of_describes hdescribes
      (Markup.apart_of_read hroot element (List.mem_of_mem_filter hmem))

/-- A document whose node has an attribute that is named like the qualifier attribute, in a
namespace. -/
def foreignClass : String :=
  "<D xmlns:a=\"u\"><T><Node Class=\"BT.Actions.Attack\" a:Class=\"Boss\"/></T></D>"

theorem keeps_last_attribute_of_each_name_foreign_class : ∃ spec element,
    read .default foreignClass = .ok spec ∧ Keeps .default element spec ∧
      element.attributes = [⟨none, "Class", "BT.Actions.Attack"⟩, ⟨some "u", "Class", "Boss"⟩] ∧
      spec.attributes.entries = [] ∧ ¬ KeepsAll .default element spec := by
  have hentries : (read .default foreignClass).toOption.map (·.attributes.entries) = some [] := by
    decide +kernel
  have hattributes : (Markup.read foreignClass).map
      (fun root => (carriers .default root).map (·.attributes)) =
        some [[⟨none, "Class", "BT.Actions.Attack"⟩, ⟨some "u", "Class", "Boss"⟩]] := by
    decide +kernel
  cases h : read .default foreignClass with
  | error e =>
      rw [h] at hentries
      cases hentries
  | ok spec =>
      rw [h] at hentries
      obtain ⟨root, top, hroot, htop, hnodes⟩ := keeps_last_attribute_of_each_name h
      rw [hroot] at hattributes
      have hspec : spec ∈ spec.nodes := by
        rw [Spec.nodes_eq]
        exact List.mem_cons_self
      obtain ⟨element, helement, hkeeps⟩ := exists_of_forall₂_of_mem hnodes.flip hspec
      have hmem : element.attributes ∈ (carriers .default root).map (·.attributes) :=
        List.mem_map_of_mem (mem_carriers_of_isTop htop helement)
      dsimp only [Option.map_some] at hattributes
      rw [Option.some.inj hattributes, List.mem_singleton] at hmem
      refine ⟨spec, element, rfl, hkeeps, hmem, Option.some.inj hentries, ?_⟩
      rw [hkeeps.all, hmem]
      decide

end Document

end BehaviorTree
