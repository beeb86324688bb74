import BehaviorTree.Proofs.Binding
import BehaviorTree.Proofs.Compilation
import BehaviorTree.Proofs.Numerals

/-! # Descriptions that are built

The builders write a tree down in texts: a loop puts the decimal text of its count into an
attribute, and a leaf every argument into two, one for its text and one for its type. Compiling
reads the texts back. The type tags of a leaf start with the mark of metadata and its keywords do
not, so they cannot be taken for each other, and different keywords have different tags. So what is
designed is what is compiled, whatever the numbers and texts. -/

namespace BehaviorTree

/-- An argument as it is given to a builder. -/
inductive Argument where
  | int (n : Int64)
  | text (s : String)

namespace Argument

/-- The text that stands for an argument. -/
def written : Argument → String
  | .int n => toString n.toInt
  | .text s => s

def tag : Argument → String
  | .int _ => "int"
  | .text _ => "string"

def value : Argument → Value
  | .int n => .int n
  | .text s => .str s

end Argument

/-- The arguments of a leaf with their keywords. No keyword is the name of the qualifier or has the
mark of metadata, and they differ in more than case. -/
structure Keywords where
  entries : List (String × Argument)
  noQualifier : ∀ entry ∈ entries, entry.1 ≠ "Class"
  noMark : ∀ entry ∈ entries, entry.1.toList.head? ≠ some '_'
  apart : (entries.map fun entry => Text.lowercase entry.1).Nodup

/-- A tree as it is designed. -/
inductive Design where
  | composite (policy : Policy) (first : Design) (rest : List Design)
  | loop (count : UInt32) (child : Design)
  | leaf (role : Role) (kind : String) (keywords : Keywords)

namespace Keywords

/-- Gives the arguments to a description, one after the other. -/
def attach (keywords : Keywords) (spec : Spec) : Spec :=
  keywords.entries.foldl (fun spec (keyword, argument) =>
    spec.withTypedAttribute keyword argument.written argument.tag) spec

end Keywords

namespace Design

mutual

/-- The description that the builders make of a design. -/
def build : Design → Spec
  | .composite policy first rest =>
      (Spec.composite policy.kind).withChildren (first.build :: buildAll rest)
  | .loop count child => Spec.loop count child.build
  | .leaf .condition kind keywords => keywords.attach (Spec.condition kind)
  | .leaf .action kind keywords => keywords.attach (Spec.action kind)

def buildAll : List Design → List Spec
  | [] => []
  | design :: rest => design.build :: buildAll rest

end

/-- A tree is the designed one: it has the shape of the design and its counts, every leaf is bound
to its kind in lower case, and its keywords in lower case are bound to the values, and nothing else
is. -/
inductive Realizes : Design → Node → Prop where
  | composite {policy : Policy} {first : Design} {rest : List Design} {nodes : List Node}
      (children : List.Forall₂ Realizes (first :: rest) nodes) :
      Realizes (.composite policy first rest) (.composite policy.fresh nodes)
  | loop {count : UInt32} {child : Design} {node : Node} (inner : Realizes child node) :
      Realizes (.loop count child) (.loop count node)
  | leaf {role : Role} {kind : String} {keywords : Keywords} {bound : Leaf}
      (capability : bound.capability = Text.lowercase kind)
      (kwargs : ∀ name value, bound.kwargs.get? name = some value ↔
        ∃ keyword argument, (keyword, argument) ∈ keywords.entries ∧
          name = Text.lowercase keyword ∧ value = argument.value) :
      Realizes (.leaf role kind keywords) (.leaf role bound)

end Design

/-! ## Attributes of leaves -/

namespace Keywords

variable (keywords : Keywords) {keyword : String} {argument : Argument}

/-- The attributes that are given to a description, in order. -/
def attributes : List (String × String) :=
  keywords.entries.flatMap fun (keyword, argument) =>
    [(keyword, argument.written), ("_" ++ keyword ++ "Type", argument.tag)]

theorem attach_eq (spec : Spec) : keywords.attach spec =
    { spec with attributes := spec.attributes.insertMany keywords.attributes } := by
  unfold attach attributes
  generalize keywords.entries = entries
  induction entries generalizing spec with
  | nil => cases spec; rfl
  | cons entry rest ih =>
      rw [List.foldl_cons, ih, List.flatMap_cons, NameMap.insertMany, NameMap.insertMany,
        List.foldl_append]
      rfl

variable {keywords}

theorem eq_of_lowercase_eq {other : String} {argument' : Argument}
    (h : (keyword, argument) ∈ keywords.entries) (h' : (other, argument') ∈ keywords.entries)
    (heq : Text.lowercase keyword = Text.lowercase other) :
    keyword = other ∧ argument = argument' :=
  Prod.mk.inj (List.inj_on_of_nodup_map keywords.apart h h' heq)

/-- A keyword is no metadata. -/
theorem isMetadata_keyword (h : (keyword, argument) ∈ keywords.entries) :
    Config.default.isMetadata keyword = false := by
  have hqualifier : keyword ≠ "Class" := keywords.noQualifier _ h
  have hmark : keyword.toList.head? ≠ some '_' := keywords.noMark _ h
  show (keyword == "Class" || ['_'].isPrefixOf keyword.toList) = false
  rw [Bool.or_eq_false_iff, beq_eq_false_iff_ne]
  refine ⟨hqualifier, ?_⟩
  cases hchars : keyword.toList with
  | nil => rfl
  | cons c rest =>
      have hc : ('_' == c) = false := by
        rw [beq_eq_false_iff_ne]
        rintro rfl
        exact hmark (by rw [hchars]; rfl)
      rw [List.isPrefixOf, hc, Bool.false_and]

/-- A type tag is metadata. -/
theorem isMetadata_tag (keyword : String) :
    Config.default.isMetadata ("_" ++ keyword ++ "Type") = true :=
  Config.default.isMetadata_typeTagName keyword

theorem mem_attributes_iff {name text : String} : (name, text) ∈ keywords.attributes ↔
    ∃ keyword argument, (keyword, argument) ∈ keywords.entries ∧
      (name = keyword ∧ text = argument.written ∨
        name = "_" ++ keyword ++ "Type" ∧ text = argument.tag) := by
  simp [attributes]

/-- No attribute is given twice: keywords differ, their tags do too, and no keyword is a tag. -/
theorem consistent_attributes : NameMap.Consistent keywords.attributes := by
  intro name a b ha hb
  obtain ⟨keyword, argument, hentry, hname⟩ := mem_attributes_iff.1 ha
  obtain ⟨other, argument', hother, hname'⟩ := mem_attributes_iff.1 hb
  have hdistinct : ∀ {keyword other : String} {argument : Argument},
      (keyword, argument) ∈ keywords.entries → keyword ≠ "_" ++ other ++ "Type" := by
    rintro keyword other argument hentry rfl
    have hnone := isMetadata_keyword hentry
    rw [isMetadata_tag] at hnone
    cases hnone
  obtain ⟨rfl, rfl⟩ | ⟨rfl, rfl⟩ := hname <;> obtain ⟨heq, rfl⟩ | ⟨heq, rfl⟩ := hname'
  · rw [(eq_of_lowercase_eq hentry hother (by rw [heq])).2]
  · exact absurd heq (hdistinct hentry)
  · exact absurd heq.symm (hdistinct hother)
  · rw [(eq_of_lowercase_eq hentry hother (by rw [Config.default.typeTagName_injective heq])).2]

/-! ## Arguments of leaves -/

theorem valueType?_tag (argument : Argument) :
    Config.default.valueType? argument.tag = some argument.value.type := by
  cases argument <;> rfl

/-- The text of an argument is read as the argument. -/
theorem parse_written (argument : Argument) :
    Value.parse argument.value.type argument.written = .ok argument.value := by
  cases argument with
  | int n => exact Value.parse_toString n
  | text s => rfl

/-- What becomes arguments of the attributes are the keywords with their texts. -/
theorem mem_keywordEntries_iff {name text : String} :
    (name, text) ∈ keywordEntries .default (NameMap.ofList keywords.attributes).entries ↔
      ∃ argument, (name, argument) ∈ keywords.entries ∧ text = argument.written := by
  rw [keywordEntries, List.mem_filter, NameMap.mem_entries_iff,
    NameMap.get?_ofList_eq_some_iff consistent_attributes, mem_attributes_iff]
  constructor
  · rintro ⟨⟨keyword, argument, hentry, ⟨rfl, rfl⟩ | ⟨rfl, rfl⟩⟩, hkept⟩
    · exact ⟨argument, hentry, rfl⟩
    · rw [isMetadata_tag] at hkept
      cases hkept
  · rintro ⟨argument, hentry, rfl⟩
    exact ⟨⟨name, argument, hentry, .inl ⟨rfl, rfl⟩⟩, by rw [isMetadata_keyword hentry]; rfl⟩

theorem attributeValue_written (path : String) (h : (keyword, argument) ∈ keywords.entries) :
    attributeValue .default path (.ofList keywords.attributes) keyword argument.written =
      .ok argument.value := by
  have htag : (NameMap.ofList keywords.attributes).get? (Config.default.typeTagName keyword) =
      some argument.tag :=
    (NameMap.get?_ofList_eq_some_iff consistent_attributes).2
      (mem_attributes_iff.2 ⟨keyword, argument, h, .inr ⟨rfl, rfl⟩⟩)
  rw [attributeValue, htag]
  dsimp only
  rw [valueType?_tag]
  dsimp only
  rw [parse_written]

/-- What an attribute brings: it is a keyword with the text of its argument, and binds the keyword
in lower case to the value. -/
def Brings (keywords : Keywords) (path : String) (entry : String × String)
    (binding : String × Value) : Prop :=
  Binds .default path (.ofList keywords.attributes) entry binding ∧
    ∃ argument, (entry.1, argument) ∈ keywords.entries ∧ binding.2 = argument.value

theorem exists_brings (keywords : Keywords) (path : String) :
    ∃ bindings, List.Forall₂ (keywords.Brings path)
      (keywordEntries .default (NameMap.ofList keywords.attributes).entries) bindings := by
  apply exists_forall₂
  rintro ⟨keyword, text⟩ hkept
  obtain ⟨argument, hentry, rfl⟩ := mem_keywordEntries_iff.1 hkept
  exact ⟨(Text.lowercase keyword, argument.value), ⟨rfl, attributeValue_written path hentry⟩,
    argument, hentry, rfl⟩

theorem nodup_lowercase_keywordEntries :
    ((keywordEntries .default (NameMap.ofList keywords.attributes).entries).map
      fun entry => Text.lowercase entry.1).Nodup := by
  apply List.Nodup.map_on _ ((NameMap.nodup_entries _).filter _)
  rintro ⟨keyword, text⟩ hkept ⟨other, text'⟩ hkept' heq
  obtain ⟨argument, hentry, rfl⟩ := mem_keywordEntries_iff.1 hkept
  obtain ⟨argument', hentry', rfl⟩ := mem_keywordEntries_iff.1 hkept'
  obtain ⟨rfl, rfl⟩ := eq_of_lowercase_eq hentry hentry' heq
  rfl

/-- The arguments that are compiled are those that were given. -/
theorem exists_arguments (keywords : Keywords) (path : String) :
    ∃ kwargs, arguments .default path (.ofList keywords.attributes) = .ok kwargs ∧
      ∀ name value, kwargs.get? name = some value ↔
        ∃ keyword argument, (keyword, argument) ∈ keywords.entries ∧
          name = Text.lowercase keyword ∧ value = argument.value := by
  obtain ⟨bindings, hbindings⟩ := keywords.exists_brings path
  have hbinds : List.Forall₂ (Binds .default path (.ofList keywords.attributes))
      (keywordEntries .default (NameMap.ofList keywords.attributes).entries) bindings :=
    hbindings.imp fun _ _ h => h.1
  have hnodup : (bindings.map (·.1)).Nodup := by
    rw [map_keyword_of_binds hbinds]
    exact nodup_lowercase_keywordEntries
  refine ⟨.ofList bindings, arguments_eq_ok_iff.2 ⟨bindings, hbinds, hnodup, rfl⟩, ?_⟩
  intro name value
  rw [NameMap.get?_ofList_eq_some_iff (NameMap.consistent_of_nodup hnodup)]
  constructor
  · intro hmem
    obtain ⟨⟨keyword, text⟩, -, ⟨hname, -⟩, argument, hentry, hvalue⟩ :=
      exists_of_forall₂_of_mem hbindings.flip hmem
    exact ⟨keyword, argument, hentry, hname, hvalue⟩
  · rintro ⟨keyword, argument, hentry, rfl, rfl⟩
    obtain ⟨⟨name, value⟩, hmem, ⟨hname, -⟩, argument', hentry', hvalue⟩ :=
      exists_of_forall₂_of_mem hbindings (mem_keywordEntries_iff.2 ⟨argument, hentry, rfl⟩)
    obtain ⟨-, rfl⟩ := eq_of_lowercase_eq hentry hentry' rfl
    rwa [← hname, ← hvalue]

end Keywords

/-! ## Compilation -/

namespace Text

/-- The text of every count is read back. -/
theorem readInteger_trim_toString (count : UInt32) :
    readInteger .uint32 (trim (toString count.toNat)) = .ok count.toNat := by
  have hlt := count.toNat_lt
  have hread : readInteger .uint32 (toString (count.toNat : Int)) = .ok count.toNat :=
    readInteger_toString (by decide) (Int.natCast_nonneg _)
      (by show (count.toNat : Int) ≤ 0xffffffff; omega)
  rw [← hread]
  exact congrArg _ (trim_toString count.toNat)

end Text

namespace Design

theorem plan_composite (path : String) (policy : Policy) (child : Spec) (rest : List Spec) :
    ((Spec.composite policy.kind).withChildren (child :: rest)).plan .default path =
      .ok (.composite policy.fresh) := by
  have harity : ((Spec.composite policy.kind).withChildren (child :: rest)).checkArity path
      (.atLeast 1) = .ok () := by
    rw [Spec.checkArity, if_pos]
    show decide (1 ≤ (child :: rest).length) = true
    simp
  have hcategory : Category.ofSegment?
      ((Spec.composite policy.kind).withChildren (child :: rest)).category = some .composite := rfl
  have hkind : Policy.ofKind? ((Spec.composite policy.kind).withChildren (child :: rest)).kind =
      some policy.fresh := Policy.ofKind?_kind policy
  rw [Spec.plan, hcategory]
  dsimp only
  rw [hkind]
  dsimp only
  rw [harity]
  rfl

theorem plan_loop (path : String) (count : UInt32) (child : Spec) :
    (Spec.loop count child).plan .default path = .ok (.loop count) := by
  have hcount : (Spec.loop count child).loopCount .default path = .ok count := by
    have htext : (Spec.loop count child).attributes.get? Config.default.countAttribute =
        some (toString count.toNat) := NameMap.get?_insert_self _ _ _
    rw [Spec.loopCount, htext]
    dsimp only
    rw [Text.readInteger_trim_toString]
    dsimp only
    rw [Int.toNat_natCast, UInt32.ofNat_toNat]
  have hcategory : Category.ofSegment? (Spec.loop count child).category = some .decorator := rfl
  have hkind : (Spec.loop count child).kind = "Loop" := rfl
  have harity : (Spec.loop count child).checkArity path (.exactly 1) = .ok () := rfl
  rw [Spec.plan, hcategory]
  dsimp only
  rw [if_pos hkind, harity, hcount]
  rfl

theorem plan_leaf (path : String) (role : Role) (kind : String) (keywords : Keywords) :
    ∃ bound, (build (.leaf role kind keywords)).plan .default path = .ok (.leaf role bound) ∧
      Realizes (.leaf role kind keywords) (.leaf role bound) := by
  obtain ⟨kwargs, hkwargs, hget⟩ := keywords.exists_arguments path
  refine ⟨⟨Text.lowercase kind, kwargs, path⟩, ?_, .leaf rfl hget⟩
  have hplan : ∀ spec : Spec, spec.children = [] → spec.kind = kind →
      spec.attributes = .ofList keywords.attributes → spec.planLeaf .default path role =
        .ok (.leaf role ⟨Text.lowercase kind, kwargs, path⟩) := by
    intro spec hchildren hkind hattributes
    have harity : spec.checkArity path (.exactly 0) = .ok () := by
      rw [Spec.checkArity, hchildren]
      rfl
    rw [Spec.planLeaf, harity, hattributes, hkind, hkwargs]
    rfl
  cases role with
  | condition =>
      rw [build, Keywords.attach_eq]
      exact hplan _ rfl rfl rfl
  | action =>
      rw [build, Keywords.attach_eq]
      exact hplan _ rfl rfl rfl

theorem children_build_leaf (role : Role) (kind : String) (keywords : Keywords) :
    (build (.leaf role kind keywords)).children = [] := by
  cases role <;> rw [build, Keywords.attach_eq] <;> rfl

theorem compileChildren_cons_eq_ok {config : Config} {path : String} {index : Nat} {child : Spec}
    {rest : List Spec} {node : Node} {nodes : List Node}
    (hnode : (child.compileAt config (childPath path index child.kind)).result = .ok node)
    (hnodes : (Spec.compileChildren config path (index + 1) rest).result = .ok nodes) :
    (Spec.compileChildren config path index (child :: rest)).result = .ok (node :: nodes) := by
  rw [childPath] at hnode
  rw [Spec.compileChildren_result_cons, hnode]
  show ((Spec.compileChildren config path (index + 1) rest).result >>= fun nodes =>
    .ok (node :: nodes)) = _
  rw [hnodes]
  rfl

theorem compileAt_eq_ok_of_plan {config : Config} {path : String} {spec : Spec} {plan : Plan}
    {nodes : List Node} (hplan : spec.plan config path = .ok plan)
    (hnodes : (Spec.compileChildren config path 0 spec.children).result = .ok nodes) :
    (spec.compileAt config path).result = .ok (plan.build nodes) := by
  rw [Spec.compileAt_result, hplan]
  show ((Spec.compileChildren config path 0 spec.children).result >>= fun nodes =>
    .ok (plan.build nodes)) = _
  rw [hnodes]
  rfl

mutual

/-- What is built of a design compiles to the designed tree, wherever it stands. -/
theorem exists_compileAt_build : ∀ (design : Design) (path : String), ∃ node,
    (design.build.compileAt .default path).result = .ok node ∧ design.Realizes node
  | .composite policy first rest, path => by
      obtain ⟨node, hnode, hfirst⟩ :=
        exists_compileAt_build first (childPath path 0 first.build.kind)
      obtain ⟨nodes, hnodes, hrest⟩ := exists_compileChildren_build rest path 1
      refine ⟨.composite policy.fresh (node :: nodes), ?_, .composite (.cons hfirst hrest)⟩
      rw [build]
      exact compileAt_eq_ok_of_plan (plan_composite path policy first.build (buildAll rest))
        (compileChildren_cons_eq_ok hnode hnodes)
  | .loop count child, path => by
      obtain ⟨node, hnode, hchild⟩ :=
        exists_compileAt_build child (childPath path 0 child.build.kind)
      refine ⟨.loop count node, ?_, .loop hchild⟩
      rw [build]
      exact compileAt_eq_ok_of_plan (plan_loop path count child.build)
        (compileChildren_cons_eq_ok hnode rfl)
  | .leaf role kind keywords, path => by
      obtain ⟨bound, hplan, hrealizes⟩ := plan_leaf path role kind keywords
      have hnodes : (Spec.compileChildren .default path 0
          (build (.leaf role kind keywords)).children).result = .ok [] := by
        rw [children_build_leaf]
        rfl
      exact ⟨.leaf role bound, compileAt_eq_ok_of_plan hplan hnodes, hrealizes⟩

/-- The same holds of the children of a node. -/
theorem exists_compileChildren_build : ∀ (designs : List Design) (path : String) (index : Nat),
    ∃ nodes, (Spec.compileChildren .default path index (buildAll designs)).result = .ok nodes ∧
      List.Forall₂ Realizes designs nodes
  | [], _, _ => ⟨[], rfl, .nil⟩
  | design :: rest, path, index => by
      obtain ⟨node, hnode, hfirst⟩ :=
        exists_compileAt_build design (childPath path index design.build.kind)
      obtain ⟨nodes, hnodes, hrest⟩ := exists_compileChildren_build rest path (index + 1)
      exact ⟨node :: nodes, compileChildren_cons_eq_ok hnode hnodes, .cons hfirst hrest⟩

end

/-- What is built compiles to what was designed: a tree of the same shape and counts, with the kinds
of its leaves in lower case as their capabilities, and exactly the given values bound to the
keywords in lower case. -/
theorem compiles_as_designed (design : Design) :
    ∃ root, design.build.compile .default = .ok root ∧ design.Realizes root :=
  exists_compileAt_build design design.build.kind

example : ∃ design : Design, design.build = (Spec.composite "Sequence").withChildren
    [(Spec.condition "HasTarget").withTypedAttribute "Range" "5" "int",
      .loop 2 (.action "Attack")] :=
  ⟨.composite .sequence
    (.leaf .condition "HasTarget"
      ⟨[("Range", .int 5)], by decide, by decide, List.nodup_singleton _⟩)
    [.loop 2 (.leaf .action "Attack" ⟨[], by decide, by decide, List.nodup_nil⟩)], rfl⟩

end Design

end BehaviorTree
