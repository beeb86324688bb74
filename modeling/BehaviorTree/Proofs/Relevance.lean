import BehaviorTree.Proofs.Comparison

/-! # What a compilation reads

A compilation reads the categories, the kinds and the numbers of children of all nodes. Of the
attributes it reads only some: of a loop its count, and of a leaf those that are not metadata, with
their type tags (`Spec.Relevant`). Descriptions that differ in nothing else compile alike. -/

namespace BehaviorTree

theorem attributeValue_congr {config : Config} {attributes attributes' : NameMap String}
    {name : String}
    (h : attributes'.get? (config.typeTagName name) = attributes.get? (config.typeTagName name))
    (path text : String) : attributeValue config path attributes' name text =
      attributeValue config path attributes name text := by
  rw [attributeValue, attributeValue, h]

namespace Spec

/-- The attributes of a node that its compilation reads: the count of a loop, and of a leaf those
that are not metadata, and the type tags of those that are there. -/
inductive Relevant (config : Config) (spec : Spec) : String → Prop where
  | count (category : spec.category = "Decorators") (kind : spec.kind = "Loop") :
      Relevant config spec config.countAttribute
  | keyword {name : String} (category : spec.category = "Conditions" ∨ spec.category = "Actions")
      (kept : ¬ config.Metadata name) : Relevant config spec name
  | tag {name : String} (category : spec.category = "Conditions" ∨ spec.category = "Actions")
      (part : TakesPart config spec.attributes name) :
      Relevant config spec (config.tagPrefix ++ name ++ config.tagSuffix)

section Relevant

variable {config : Config} {spec : Spec} {name : String}

theorem not_relevant_of_composite (hcategory : spec.category = "Composites") :
    ¬ spec.Relevant config name := by
  rintro (⟨category, -⟩ | ⟨category, -⟩ | ⟨category, -⟩) <;> simp [hcategory] at category

theorem Relevant.eq_count (h : spec.Relevant config name)
    (hcategory : spec.category = "Decorators") : name = config.countAttribute := by
  cases h with
  | count => rfl
  | keyword category => simp [hcategory] at category
  | tag category => simp [hcategory] at category

end Relevant

/-- Two descriptions have the same form, with the same categories and kinds, and at each node the
same relevant attributes. Their namespaces and their other attributes may differ. -/
inductive Alike (config : Config) : Spec → Spec → Prop where
  | intro {a b : Spec} (category : b.category = a.category) (kind : b.kind = a.kind)
      (attributes : ∀ name, a.Relevant config name →
        b.attributes.get? name = a.attributes.get? name)
      (children : List.Forall₂ (Alike config) a.children b.children) : Alike config a b

variable {config : Config} {a b : Spec}

theorem Alike.children (h : Alike config a b) :
    List.Forall₂ (Alike config) a.children b.children := by
  cases h with
  | intro _ _ _ children => exact children

theorem Alike.matches (h : Alike config a b) : Matches config config id a b := by
  obtain ⟨hcategory, hkind, hattributes, -⟩ := h
  refine ⟨hcategory, hkind, ?_, ?_, rfl⟩
  · intro hdecorator hloop path
    exact loopCount_congr rfl (hattributes _ (.count hdecorator hloop)) path
  · intro hleaf path
    refine arguments_congr (fun _ => rfl) ?_ ?_
    · intro name hkept
      exact hattributes _ (.keyword hleaf hkept)
    · intro name text hpart
      exact attributeValue_congr (hattributes _ (.tag hleaf hpart)) path text

/-- Descriptions that differ only in what a compilation does not read compile alike: the same nodes
are completed, and the same tree comes of it or the same error. -/
theorem compile_reads_relevant (config : Config) {a b : Spec} (h : Alike config a b) :
    a.compilation config = b.compilation config ∧ a.compile config = b.compile config := by
  have hsame : b.compilation config = a.compilation config :=
    compilation_eq_of_matches (Alike config) (fun _ _ h => h.matches) (fun _ _ h => h.children) h
  exact ⟨hsame.symm, congrArg Compilation.result hsame.symm⟩

def waitInRange : Spec := (action "Wait").withTypedAttribute "Range" "1" "int"

/-- The leaf with another attribute that has the form of a type tag. There is no attribute that it
would be the tag of. -/
def waitWithStrayTag : Spec := waitInRange.withAttribute "_CommentType" "int"

theorem alike_waitInRange : Alike .default waitInRange waitWithStrayTag := by
  refine .intro rfl rfl (fun name hrelevant => NameMap.get?_insert_of_ne _ ?_ _) .nil
  rintro rfl
  generalize hname : "_CommentType" = name at hrelevant
  cases hrelevant with
  | count category => exact absurd category (by decide)
  | keyword category kept =>
      subst hname
      exact kept (by decide)
  | @tag keyword category part =>
      obtain rfl : "Comment" = keyword := Config.typeTagName_injective .default hname
      exact absurd part.1 (by decide)

/-- The leaf below a loop, which is given another attribute, below a composite, which is given one
and moved to another namespace. -/
theorem compile_reads_relevant_stray_tag :
    let plain := (composite "Sequence").withChild (.loop 3 waitInRange)
    let annotated := { (composite "Sequence").withAttribute "Note" "slow" with
      space := "Old"
      children := [(Spec.loop 3 waitWithStrayTag).withAttribute "Speed" "fast"] }
    Alike .default plain annotated ∧ (∃ root, plain.compile .default = .ok root) ∧
      plain.compile .default = annotated.compile .default := by
  intro plain annotated
  have halike : Alike .default plain annotated := by
    refine .intro rfl rfl ?_ (.cons (.intro rfl rfl ?_ (.cons alike_waitInRange .nil)) .nil)
    · intro name hrelevant
      exact absurd hrelevant (not_relevant_of_composite rfl)
    · intro name hrelevant
      rw [hrelevant.eq_count rfl]
      decide
  exact ⟨halike, ⟨_, rfl⟩, (compile_reads_relevant .default halike).2⟩

end Spec

end BehaviorTree
