import BehaviorTree.Proofs.Tagging
import BehaviorTree.Proofs.Compilation

/-! # Two compilations side by side

Two descriptions of the same form are compiled side by side, each under its own settings. If at
every node the two have the same category and kind, and the count or the arguments that are read
there are the same (`Spec.Matches`), then the same comes of both compilations, whether they succeed
or fail. The names of the capabilities are the only thing in which the trees may differ
(`Spec.compileAt_eq_map`). -/

namespace BehaviorTree

/-! ## Trees with other names -/

namespace Node

mutual

/-- A tree with the names of its capabilities changed. -/
def renamed (rename : String → String) : Node → Node
  | .composite policy children => .composite policy (renamedAll rename children)
  | .loop count child => .loop count (child.renamed rename)
  | .leaf role bound => .leaf role { bound with capability := rename bound.capability }

def renamedAll (rename : String → String) : List Node → List Node
  | [] => []
  | node :: rest => node.renamed rename :: renamedAll rename rest

end

theorem renamedAll_eq_map (rename : String → String) (nodes : List Node) :
    renamedAll rename nodes = nodes.map (renamed rename) := by
  induction nodes with
  | nil => rfl
  | cons node rest ih => rw [renamedAll, ih, List.map_cons]

theorem renamed_id (node : Node) : node.renamed id = node := by
  induction node using child_induction with
  | step node ih =>
      cases node with
      | leaf role bound => rfl
      | loop count child => rw [renamed, ih child (List.mem_singleton_self child)]
      | composite policy nodes =>
          have hnodes : nodes.map (renamed id) = nodes :=
            (List.map_congr_left ih).trans (List.map_id nodes)
          rw [renamed, renamedAll_eq_map, hnodes]

end Node

namespace Plan

/-- A plan with the name of the capability changed, if it is that of a leaf. -/
def renamed (rename : String → String) : Plan → Plan
  | .leaf role bound => .leaf role { bound with capability := rename bound.capability }
  | plan => plan

theorem category_renamed (rename : String → String) (plan : Plan) :
    (plan.renamed rename).category = plan.category := by
  cases plan <;> rfl

theorem build_renamed (rename : String → String) (plan : Plan) (nodes : List Node) :
    (plan.renamed rename).build (nodes.map (Node.renamed rename)) =
      (plan.build nodes).renamed rename := by
  cases plan with
  | leaf role bound => rfl
  | composite policy => simp [renamed, build, Node.renamed, Node.renamedAll_eq_map]
  | loop count =>
      match nodes with
      | [] => rfl
      | [_] => rfl
      | _ :: _ :: _ => simp [renamed, build, Node.renamed, Node.renamedAll_eq_map]

end Plan

namespace Compilation

variable {α β α' β' : Type}

/-- The same compilation with its result changed. -/
def map (f : α → β) (compilation : Compilation α) : Compilation β :=
  ⟨compilation.completed, compilation.result.map f⟩

theorem map_id (compilation : Compilation α) : compilation.map id = compilation := by
  obtain ⟨completed, result⟩ := compilation
  cases result <;> rfl

theorem ofResult_map (result : Except CompileError α) (f : α → β) :
    ofResult (result.map f) = (ofResult result).map f := rfl

theorem andThen_map {first : Compilation α} {f : α → α'} {g : β → β'} {next : α → Compilation β}
    {next' : α' → Compilation β'} (h : ∀ a, next' (f a) = (next a).map g) :
    (first.map f).andThen next' = (first.andThen next).map g := by
  obtain ⟨completed, result⟩ := first
  cases result with
  | error e => rfl
  | ok a =>
      simp only [andThen, map, Except.map, h]

end Compilation

/-! ## Arguments side by side -/

section Fold

variable {α β ε : Type} {step step' : β → α → Except ε β}

theorem foldlM_congr {items : List α} (h : ∀ item ∈ items, ∀ b, step b item = step' b item)
    (start : β) : items.foldlM step start = items.foldlM step' start := by
  induction items generalizing start with
  | nil => rfl
  | cons first rest ih =>
      rw [List.foldlM_cons, List.foldlM_cons, h first List.mem_cons_self]
      exact congrArg _ (funext (ih fun item hitem => h item (List.mem_cons_of_mem _ hitem)))

end Fold

section Arguments

variable {config config' : Config} {path : String} {attributes attributes' : NameMap String}

/-- Only the attributes that are not metadata are bound. -/
theorem arguments_eq_foldlM_keywordEntries :
    arguments config path attributes = (keywordEntries config attributes.entries).foldlM
      (bindAttribute config path attributes) .empty := by
  rw [arguments, keywordEntries, List.foldlM_filter]
  apply foldlM_congr
  intro entry _ kwargs
  cases hmetadata : config.isMetadata entry.1 with
  | true => exact bindAttribute_of_metadata hmetadata
  | false => rfl

theorem bindAttribute_congr {name text : String}
    (hmetadata : config'.isMetadata name = config.isMetadata name)
    (hvalue : attributeValue config' path attributes' name text =
      attributeValue config path attributes name text) (kwargs : Kwargs) :
    bindAttribute config' path attributes' kwargs (name, text) =
      bindAttribute config path attributes kwargs (name, text) := by
  simp only [bindAttribute, hmetadata, hvalue]

/-- Attributes that are the same, metadata apart, have the same keywords in the same order. -/
theorem keywordEntries_congr
    (h : ∀ name, ¬ config.Metadata name → attributes'.get? name = attributes.get? name) :
    keywordEntries config attributes'.entries = keywordEntries config attributes.entries := by
  have hperm : (keywordEntries config attributes'.entries).Perm
      (keywordEntries config attributes.entries) := by
    apply (List.perm_ext_iff_of_nodup (attributes'.nodup_entries.filter _)
      (attributes.nodup_entries.filter _)).2
    rintro ⟨name, text⟩
    rw [← keywordEntries, ← keywordEntries, mem_keywordEntries_iff, mem_keywordEntries_iff,
      TakesPart, TakesPart, NameMap.contains, NameMap.contains]
    by_cases hmetadata : config.Metadata name
    · simp [hmetadata]
    · rw [h name hmetadata]
  have hmaps : (⟨_, attributes'.increasing.filter _⟩ : NameMap String) =
      ⟨_, attributes.increasing.filter _⟩ := NameMap.ext_of_perm hperm
  exact congrArg NameMap.entries hmaps

/-- Arguments are the same if the attributes that are not metadata are, and have the same values. -/
theorem arguments_congr (hmetadata : ∀ name, config'.isMetadata name = config.isMetadata name)
    (hkept : ∀ name, ¬ config.Metadata name → attributes'.get? name = attributes.get? name)
    (hvalue : ∀ name text, TakesPart config attributes name →
      attributeValue config' path attributes' name text =
        attributeValue config path attributes name text) :
    arguments config' path attributes' = arguments config path attributes := by
  have hentries : keywordEntries config' attributes'.entries =
      keywordEntries config attributes.entries := by
    rw [← keywordEntries_congr hkept]
    exact congrArg (attributes'.entries.filter ·) (funext fun entry => by rw [hmetadata])
  rw [arguments_eq_foldlM_keywordEntries, arguments_eq_foldlM_keywordEntries, hentries]
  apply foldlM_congr
  rintro ⟨name, text⟩ hentry kwargs
  exact bindAttribute_congr (hmetadata name) (hvalue name text (mem_keywordEntries_iff.1 hentry).1)
    kwargs

end Arguments

/-! ## Compilations side by side -/

namespace Spec

/-- Two nodes are read alike, each under its own settings: they have the same category and kind, and
the count of a loop or the arguments of a leaf are the same. A capability that one is bound to has
the name of that of the other, changed. -/
structure Matches (config config' : Config) (rename : String → String) (a b : Spec) : Prop where
  category : b.category = a.category
  kind : b.kind = a.kind
  count : a.category = "Decorators" → a.kind = "Loop" →
    ∀ path, b.loopCount config' path = a.loopCount config path
  arguments : a.category = "Conditions" ∨ a.category = "Actions" →
    ∀ path, arguments config' path b.attributes = arguments config path a.attributes
  capability : config'.capabilityName a.kind = rename (config.capabilityName a.kind)

section Matches

variable {config config' : Config} {rename : String → String} {a b : Spec}

/-- Of the settings a count depends on the name of its attribute only, and of the node on its text.
-/
theorem loopCount_congr (hname : config'.countAttribute = config.countAttribute)
    (htext : b.attributes.get? config.countAttribute = a.attributes.get? config.countAttribute)
    (path : String) : b.loopCount config' path = a.loopCount config path := by
  rw [loopCount, loopCount, hname, htext]

theorem Matches.planLeaf_eq (h : Matches config config' rename a b)
    (harity : b.children.length = a.children.length)
    (hcategory : a.category = "Conditions" ∨ a.category = "Actions") (path : String) (role : Role) :
    b.planLeaf config' path role = (a.planLeaf config path role).map (Plan.renamed rename) := by
  rw [planLeaf, planLeaf, checkArity, checkArity, h.arguments hcategory, h.kind, harity,
    h.capability]
  cases (Arity.exactly 0).admits a.children.length with
  | false => rfl
  | true => cases BehaviorTree.arguments config path a.attributes <;> rfl

/-- Nodes that are read alike have the same plan, the names of capabilities apart, or the same
fault. -/
theorem Matches.plan_eq (h : Matches config config' rename a b)
    (harity : b.children.length = a.children.length) (path : String) :
    b.plan config' path = (a.plan config path).map (Plan.renamed rename) := by
  rw [plan, plan, h.category, h.kind]
  cases hsegment : Category.ofSegment? a.category with
  | none => rfl
  | some category =>
      have hcategory := Category.ofSegment?_eq_some_iff.1 hsegment
      cases category with
      | composite =>
          cases Policy.ofKind? a.kind with
          | none => rfl
          | some policy =>
              simp only [checkArity, h.kind, harity]
              cases (Arity.atLeast 1).admits a.children.length <;> rfl
      | decorator =>
          by_cases hkind : a.kind = "Loop"
          · simp only [hkind, if_true, checkArity, h.kind, harity, h.count hcategory hkind path]
            cases (Arity.exactly 1).admits a.children.length with
            | false => rfl
            | true => cases a.loopCount config path <;> rfl
          · simp only [hkind, if_false]
            rfl
      | condition => exact h.planLeaf_eq harity (.inl hcategory) path .condition
      | action => exact h.planLeaf_eq harity (.inr hcategory) path .action

end Matches

/-- A node is planned, then its children are compiled, then it is complete. -/
theorem compileAt_eq_andThen (config : Config) (path : String) (spec : Spec) :
    spec.compileAt config path = (Compilation.ofResult (spec.plan config path)).andThen fun plan =>
      (compileChildren config path 0 spec.children).andThen fun nodes =>
        ⟨[⟨path, plan.category⟩], .ok (plan.build nodes)⟩ := by
  cases spec
  rfl

theorem compileChildren_cons_eq_andThen (config : Config) (path : String) (index : Nat)
    (child : Spec) (rest : List Spec) :
    compileChildren config path index (child :: rest) =
      (child.compileAt config (childPath path index child.kind)).andThen fun node =>
        (compileChildren config path (index + 1) rest).andThen fun nodes =>
          .ofResult (.ok (node :: nodes)) := by
  rw [compileChildren]
  rfl

section Related

variable {config config' : Config} {rename : String → String} {related : Spec → Spec → Prop}

theorem compileChildren_eq_map {specs specs' : List Spec} (h : List.Forall₂ related specs specs')
    (hkind : ∀ a b, related a b → b.kind = a.kind)
    (hcompile : ∀ a ∈ specs, ∀ b, related a b → ∀ path,
      b.compileAt config' path = (a.compileAt config path).map (Node.renamed rename))
    (path : String) (index : Nat) :
    compileChildren config' path index specs' =
      (compileChildren config path index specs).map (List.map (Node.renamed rename)) := by
  induction h generalizing index with
  | nil => rfl
  | @cons a b rest rest' hfirst hrest ih =>
      have hlater := ih (fun a ha => hcompile a (List.mem_cons_of_mem _ ha)) (index + 1)
      have hhead := hcompile a List.mem_cons_self b hfirst (childPath path index a.kind)
      rw [compileChildren_cons_eq_andThen, compileChildren_cons_eq_andThen, hkind a b hfirst, hhead,
        hlater]
      apply Compilation.andThen_map
      intro node
      apply Compilation.andThen_map
      intro nodes
      rfl

/-- Descriptions of the same form whose nodes are read alike compile alike: with the same nodes
completed, and to the same error or the same tree, the names of capabilities apart. -/
theorem compileAt_eq_map (hmatches : ∀ a b, related a b → Matches config config' rename a b)
    (hchildren : ∀ a b, related a b → List.Forall₂ related a.children b.children) {a b : Spec}
    (h : related a b) (path : String) :
    b.compileAt config' path = (a.compileAt config path).map (Node.renamed rename) := by
  induction a using child_induction generalizing b path with
  | step a ih =>
      have hforall := hchildren a b h
      have hplan := (hmatches a b h).plan_eq hforall.length_eq.symm path
      have hnodes := compileChildren_eq_map hforall (fun a b h => (hmatches a b h).kind)
        (fun child hchild b h path => ih child hchild h path) path 0
      rw [compileAt_eq_andThen, compileAt_eq_andThen, hplan, hnodes, Compilation.ofResult_map]
      apply Compilation.andThen_map
      intro plan
      rw [Plan.category_renamed]
      apply Compilation.andThen_map
      intro nodes
      rw [Plan.build_renamed]
      rfl

variable (related) in
/-- Descriptions of the same form whose nodes are read alike compile alike, the names of
capabilities apart. -/
theorem compilation_eq_map (hmatches : ∀ a b, related a b → Matches config config' rename a b)
    (hchildren : ∀ a b, related a b → List.Forall₂ related a.children b.children) {a b : Spec}
    (h : related a b) :
    b.compilation config' = (a.compilation config).map (Node.renamed rename) := by
  rw [compilation, compilation, (hmatches a b h).kind]
  exact compileAt_eq_map hmatches hchildren h a.kind

end Related

/-- If the names of capabilities are the same too, then everything is. -/
theorem compilation_eq_of_matches {config config' : Config} (related : Spec → Spec → Prop)
    (hmatches : ∀ a b, related a b → Matches config config' id a b)
    (hchildren : ∀ a b, related a b → List.Forall₂ related a.children b.children) {a b : Spec}
    (h : related a b) : b.compilation config' = a.compilation config := by
  rw [compilation_eq_map related hmatches hchildren h, funext Node.renamed_id]
  exact Compilation.map_id _

end Spec

end BehaviorTree
