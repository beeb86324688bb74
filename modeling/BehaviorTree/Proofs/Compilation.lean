import BehaviorTree.Proofs.Validity

/-! # Compilation of a whole description

A compilation makes the checks of all sites in the order of the nodes and stops at the first that
fails (`of?_compileAt`). A tree that comes out of it mirrors its description: at every position
there is a node on both sides or on neither, and the two say the same (`mirrors_of_compileAt`). -/

namespace BehaviorTree

theorem CompileError.bind_eq_ok_iff {α β : Type} {result : Except CompileError α}
    {next : α → Except CompileError β} {b : β} :
    (result >>= next) = .ok b ↔ ∃ a, result = .ok a ∧ next a = .ok b := by
  cases result <;> simp [bind, Except.bind]

theorem Compilation.result_bind {α β : Type} (first : Compilation α) (next : α → Compilation β) :
    (first >>= next).result = first.result >>= fun a => (next a).result := by
  change (first.andThen next).result = _
  rw [andThen]
  cases first.result <;> rfl

namespace Spec

open CompileError

variable {config : Config} {path : String}

/-- A node is planned, then its children are compiled, then it is built over them. -/
theorem compileAt_result (config : Config) (path : String) (spec : Spec) :
    (spec.compileAt config path).result = (spec.plan config path >>= fun plan =>
      (compileChildren config path 0 spec.children).result >>= fun nodes =>
        .ok (plan.build nodes)) := by
  obtain ⟨space, category, kind, attributes, children⟩ := spec
  rw [compileAt]
  simp only [Compilation.result_bind]
  rfl

theorem compileChildren_result_cons (config : Config) (path : String) (index : Nat) (child : Spec)
    (rest : List Spec) :
    (compileChildren config path index (child :: rest)).result =
      ((child.compileAt config (path ++ "/" ++ toString index ++ ":" ++ child.kind)).result >>=
        fun node => (compileChildren config path (index + 1) rest).result >>= fun nodes =>
          .ok (node :: nodes)) := by
  rw [compileChildren, childPath]
  simp only [Compilation.result_bind]
  rfl

/-! ## Errors -/

theorem of?_compileChildren {specs : List Spec}
    (h : ∀ child ∈ specs, ∀ path, of? (child.compileAt config path).result =
      (child.sites path).findSome? (Site.fault? config)) (path : String) (index : Nat) :
    of? (compileChildren config path index specs).result =
      (sitesFrom path index specs).findSome? (Site.fault? config) := by
  induction specs generalizing index with
  | nil => rfl
  | cons child rest ih =>
      have hchild := h child List.mem_cons_self
        (path ++ "/" ++ toString index ++ ":" ++ child.kind)
      have hrest := ih (fun other hother => h other (List.mem_cons_of_mem _ hother)) (index + 1)
      rw [compileChildren_result_cons, sitesFrom, List.findSome?_append, ← hchild, ← hrest,
        of?_bind]
      cases (child.compileAt config
        (path ++ "/" ++ toString index ++ ":" ++ child.kind)).result with
      | error e => rfl
      | ok node =>
          dsimp only
          rw [of?_bind]
          cases (compileChildren config path (index + 1) rest).result <;> rfl

/-- The error of a compilation is that of the first site with a fault. -/
theorem of?_compileAt (config : Config) (path : String) (spec : Spec) :
    of? (spec.compileAt config path).result =
      (spec.sites path).findSome? (Site.fault? config) := by
  induction spec using child_induction generalizing path with
  | step spec ih =>
      have hchildren := of?_compileChildren ih path 0
      rw [compileAt_result, sites_eq, List.findSome?_cons, ← hchildren, ← of?_plan, of?_bind]
      cases spec.plan config path with
      | error e => rfl
      | ok plan =>
          dsimp only
          rw [of?_bind]
          cases (compileChildren config path 0 spec.children).result <;> rfl

theorem compile_eq_error_iff {spec : Spec} {e : CompileError} :
    spec.compile config = .error e ↔
      (spec.sites spec.kind).findSome? (Site.fault? config) = some e := by
  rw [← of?_compileAt, of?_eq_some_iff]
  rfl

theorem exists_compile_eq_ok_iff {spec : Spec} :
    (∃ node, spec.compile config = .ok node) ↔
      ∀ site ∈ spec.sites spec.kind, site.Valid config := by
  have hnone : (∃ node, spec.compile config = .ok node) ↔
      of? (spec.compileAt config spec.kind).result = none := of?_eq_none_iff.symm
  rw [hnone, of?_compileAt, List.findSome?_eq_none_iff]
  simp only [Site.fault?_eq_none_iff]

end Spec

/-! ## Trees that mirror descriptions -/

theorem Node.size_eq (node : Node) : node.size = Node.sizeAll node.children + 1 := by
  cases node <;> rfl

/-- A compiled node says what the description says at a site. -/
inductive Mirrors (config : Config) (site : Site) : Node → Prop where
  | composite {policy : Policy} {nodes : List Node} (category : site.category = "Composites")
      (kind : site.kind = policy.kind) (arity : nodes.length = site.arity)
      (cursor : ∀ cursor, policy = .alternate cursor → cursor = 0) :
      Mirrors config site (.composite policy nodes)
  | loop {count : UInt32} {child : Node} {text : String} (category : site.category = "Decorators")
      (kind : site.kind = "Loop") (arity : site.arity = 1)
      (given : site.attributes.get? config.countAttribute = some text)
      (reading : Text.readInteger .uint32 (Text.trim text) = .ok count.toNat) :
      Mirrors config site (.loop count child)
  | leaf {role : Role} {bound : Leaf} (category : site.category = role.category.segment)
      (arity : site.arity = 0) (capability : bound.capability = config.capabilityName site.kind)
      (kwargs : arguments config site.path site.attributes = .ok bound.kwargs)
      (path : bound.path = site.path) :
      Mirrors config site (.leaf role bound)

namespace Spec

open CompileError

variable {config : Config} {path : String}

theorem compileChildren_eq_ok {index : Nat} {specs : List Spec} {nodes : List Node}
    (h : (compileChildren config path index specs).result = .ok nodes) :
    nodes.length = specs.length ∧ ∀ (i : Nat) (child : Spec) (node : Node),
      specs[i]? = some child → nodes[i]? = some node →
        (child.compileAt config
          (path ++ "/" ++ toString (index + i) ++ ":" ++ child.kind)).result = .ok node := by
  induction specs generalizing index nodes with
  | nil =>
      cases h
      exact ⟨rfl, fun i child node hchild _ => by simp at hchild⟩
  | cons first rest ih =>
      rw [compileChildren_result_cons, bind_eq_ok_iff] at h
      obtain ⟨node, hnode, h⟩ := h
      rw [bind_eq_ok_iff] at h
      obtain ⟨others, hothers, h⟩ := h
      cases h
      obtain ⟨hlength, heach⟩ := ih hothers
      refine ⟨by rw [List.length_cons, List.length_cons, hlength], ?_⟩
      intro i child other hchild hother
      cases i with
      | zero =>
          cases hchild
          cases hother
          exact hnode
      | succ i =>
          have hcompiled := heach i child other hchild hother
          rwa [Nat.add_assoc, Nat.add_comm 1 i] at hcompiled

theorem checkArity_bind_eq_ok {α : Type} {spec : Spec} {expected : Arity}
    {next : Except CompileError α} {a : α}
    (h : (spec.checkArity path expected >>= fun _ => next) = .ok a) :
    expected.admits spec.children.length = true ∧ next = .ok a := by
  rw [bind_eq_ok_iff] at h
  obtain ⟨_, hcheck, h⟩ := h
  rw [checkArity] at hcheck
  split at hcheck
  · rename_i hadmits
    exact ⟨hadmits, h⟩
  · cases hcheck

theorem loopCount_eq_ok {spec : Spec} {count : UInt32}
    (h : spec.loopCount config path = .ok count) :
    ∃ text, spec.attributes.get? config.countAttribute = some text ∧
      Text.readInteger .uint32 (Text.trim text) = .ok count.toNat := by
  rw [loopCount] at h
  split at h
  · cases h
  rename_i text htext
  refine ⟨text, htext, ?_⟩
  split at h
  · rename_i n hread
    cases h
    rw [Text.toNat_ofNat_toNat_of_readInteger hread, hread]
  · cases h

theorem mirrors_of_planLeaf {spec : Spec} (role : Role) {plan : Plan} {nodes : List Node}
    (hcategory : spec.category = role.category.segment)
    (h : spec.planLeaf config path role = .ok plan)
    (hnodes : nodes.length = spec.children.length) :
    Mirrors config ⟨spec.head, path⟩ (plan.build nodes) ∧ (plan.build nodes).children = nodes := by
  rw [planLeaf] at h
  obtain ⟨hadmits, h⟩ := checkArity_bind_eq_ok h
  rw [bind_eq_ok_iff] at h
  obtain ⟨kwargs, hkwargs, h⟩ := h
  cases h
  have harity : spec.children.length = 0 := by simpa [Arity.admits] using hadmits
  obtain rfl : nodes = [] := List.eq_nil_of_length_eq_zero (hnodes.trans harity)
  exact ⟨.leaf hcategory harity rfl hkwargs rfl, rfl⟩

/-- What a plan builds over the right number of nodes mirrors the site that it was made for. -/
theorem mirrors_of_plan {spec : Spec} {plan : Plan} {nodes : List Node}
    (h : spec.plan config path = .ok plan) (hnodes : nodes.length = spec.children.length) :
    Mirrors config ⟨spec.head, path⟩ (plan.build nodes) ∧ (plan.build nodes).children = nodes := by
  rw [Spec.plan] at h
  split at h
  · cases h
  · rename_i hsegment
    split at h
    · cases h
    rename_i policy hpolicy
    obtain ⟨-, h⟩ := checkArity_bind_eq_ok h
    cases h
    obtain ⟨hkind, hfresh⟩ := Policy.ofKind?_eq_some_iff.1 hpolicy
    refine ⟨.composite (Category.ofSegment?_eq_some_iff.1 hsegment) hkind.symm hnodes ?_, rfl⟩
    intro cursor hcursor
    rw [hcursor, Policy.fresh, Policy.alternate.injEq] at hfresh
    exact hfresh.symm
  · rename_i hsegment
    split at h
    · rename_i hkind
      obtain ⟨hadmits, h⟩ := checkArity_bind_eq_ok h
      rw [bind_eq_ok_iff] at h
      obtain ⟨count, hcount, h⟩ := h
      cases h
      have harity : spec.children.length = 1 := by simpa [Arity.admits] using hadmits
      obtain ⟨node, rfl⟩ := List.length_eq_one_iff.1 (hnodes.trans harity)
      obtain ⟨text, htext, hread⟩ := loopCount_eq_ok hcount
      exact ⟨.loop (Category.ofSegment?_eq_some_iff.1 hsegment) hkind harity htext hread, rfl⟩
    · cases h
  · rename_i hsegment
    exact mirrors_of_planLeaf .condition (Category.ofSegment?_eq_some_iff.1 hsegment) h hnodes
  · rename_i hsegment
    exact mirrors_of_planLeaf .action (Category.ofSegment?_eq_some_iff.1 hsegment) h hnodes

/-- What a description compiles to: a node that mirrors it, over what its children compile to. -/
theorem compileAt_eq_ok {spec : Spec} {node : Node}
    (h : (spec.compileAt config path).result = .ok node) :
    Mirrors config ⟨spec.head, path⟩ node ∧ node.children.length = spec.children.length ∧
      ∀ (i : Nat) (child : Spec) (compiled : Node),
        spec.children[i]? = some child → node.children[i]? = some compiled →
          (child.compileAt config
            (path ++ "/" ++ toString i ++ ":" ++ child.kind)).result = .ok compiled := by
  rw [compileAt_result, bind_eq_ok_iff] at h
  obtain ⟨plan, hplan, h⟩ := h
  rw [bind_eq_ok_iff] at h
  obtain ⟨nodes, hnodes, h⟩ := h
  cases h
  obtain ⟨hlength, heach⟩ := compileChildren_eq_ok hnodes
  obtain ⟨hmirrors, hchildren⟩ := mirrors_of_plan hplan hlength
  rw [hchildren]
  exact ⟨hmirrors, hlength, by simpa only [Nat.zero_add] using heach⟩

/-- A compiled tree mirrors its description at every position. -/
theorem mirrors_of_compileAt {spec : Spec} {node : Node}
    (h : (spec.compileAt config path).result = .ok node) (position : Position) :
    Option.Rel (Mirrors config) (spec.site? path position) (node.at? position) := by
  induction position generalizing path spec node with
  | nil => exact .some (compileAt_eq_ok h).1
  | cons index rest ih =>
      obtain ⟨-, hlength, heach⟩ := compileAt_eq_ok h
      rw [site?, Node.at?_cons]
      by_cases hindex : index < spec.children.length
      · have hnode : index < node.children.length := by omega
        have hcompiled := heach index _ _ (List.getElem?_eq_getElem hindex)
          (List.getElem?_eq_getElem hnode)
        rw [List.getElem?_eq_getElem hindex, List.getElem?_eq_getElem hnode]
        exact ih hcompiled
      · rw [List.getElem?_eq_none (by omega), List.getElem?_eq_none (by omega)]
        exact .none

theorem size_eq (spec : Spec) : spec.size = sizeAll spec.children + 1 := by
  cases spec
  rfl

theorem sizeAll_eq_of_each {specs : List Spec} {nodes : List Node}
    (hlength : nodes.length = specs.length)
    (heach : ∀ (i : Nat) (child : Spec) (node : Node), specs[i]? = some child →
      nodes[i]? = some node → node.size = child.size) :
    Node.sizeAll nodes = sizeAll specs := by
  induction specs generalizing nodes with
  | nil =>
      obtain rfl := List.eq_nil_of_length_eq_zero hlength
      rfl
  | cons child rest ih =>
      cases nodes with
      | nil => simp at hlength
      | cons node others =>
          have hnode := heach 0 child node rfl rfl
          have hothers := ih (by simpa using hlength)
            fun i child node hchild hnode => heach (i + 1) child node hchild hnode
          rw [Node.sizeAll, sizeAll, hnode, hothers]

/-- A compiled tree has as many nodes as its description. -/
theorem size_of_compileAt {spec : Spec} {node : Node}
    (h : (spec.compileAt config path).result = .ok node) : node.size = spec.size := by
  induction spec using child_induction generalizing path node with
  | step spec ih =>
      obtain ⟨-, hlength, heach⟩ := compileAt_eq_ok h
      rw [Node.size_eq, size_eq, sizeAll_eq_of_each hlength]
      intro i child compiled hchild hcompiled
      exact ih child (List.mem_of_getElem? hchild) (heach i child compiled hchild hcompiled)

/-- A description compiles exactly when every one of its nodes is valid by itself. The tree that it
compiles to has a node at the same positions, each mirroring what the description says there, and
so as many nodes. -/
theorem compile_succeeds_iff_valid (config : Config) (spec : Spec) :
    ((∃ node, spec.compile config = .ok node) ↔
      ∀ (position : Position) (site : Site), spec.site? spec.kind position = some site →
        site.Valid config) ∧
    ∀ node, spec.compile config = .ok node →
      (∀ position : Position,
        Option.Rel (Mirrors config) (spec.site? spec.kind position) (node.at? position)) ∧
      node.size = spec.size := by
  refine ⟨?_, fun node h => ⟨mirrors_of_compileAt h, size_of_compileAt h⟩⟩
  rw [exists_compile_eq_ok_iff]
  constructor
  · intro h position site hsite
    exact h site (mem_sites_iff.2 ⟨position, hsite⟩)
  · intro h site hmem
    obtain ⟨position, hsite⟩ := mem_sites_iff.1 hmem
    exact h position site hsite

/-- A compilation fails with `e` exactly when `e` is the error of the first node in order that is
not valid by itself: that of the first of its checks to fail, at its path. Nothing that comes later
plays a part, since a description that says the same up to and including that node fails with `e`
too. -/
theorem compile_fails_iff_first_fault (config : Config) (spec : Spec) (e : CompileError) :
    spec.compile config = .error e ↔
      ∃ before site after, spec.sites spec.kind = before ++ site :: after ∧
        (∀ earlier ∈ before, earlier.Valid config) ∧ ¬ site.Valid config ∧
        site.fault? config = some e ∧ e.path = site.path ∧
        ∀ other : Spec,
          other.heads.take (before.length + 1) = spec.heads.take (before.length + 1) →
            other.compile config = .error e := by
  constructor
  · intro h
    obtain ⟨before, site, after, hsites, hfault, hbefore⟩ :=
      List.findSome?_eq_some_iff.1 (compile_eq_error_iff.1 h)
    refine ⟨before, site, after, hsites, ?_, ?_, hfault, Site.path_of_fault? hfault, ?_⟩
    · intro earlier hearlier
      exact Site.fault?_eq_none_iff.1 (hbefore earlier hearlier)
    · intro hvalid
      rw [Site.fault?_eq_none_iff.2 hvalid] at hfault
      cases hfault
    · intro other hheads
      -- The first sites are the same ones, whatever follows them in the other description.
      have htake := sites_take_eq hheads
      rw [hsites, List.take_length_add_append, List.take_succ_cons, List.take_zero] at htake
      have hprefix := List.take_append_drop (before.length + 1) (other.sites other.kind)
      rw [htake, List.append_assoc, List.singleton_append] at hprefix
      exact compile_eq_error_iff.2
        (List.findSome?_eq_some_iff.2 ⟨before, site, _, hprefix.symm, hfault, hbefore⟩)
  · rintro ⟨before, site, after, hsites, hvalid, -, hfault, -, -⟩
    have hbefore : ∀ earlier ∈ before, earlier.fault? config = none := by
      intro earlier hearlier
      exact Site.fault?_eq_none_iff.2 (hvalid earlier hearlier)
    exact compile_eq_error_iff.2
      (List.findSome?_eq_some_iff.2 ⟨before, site, after, hsites, hfault, hbefore⟩)

end Spec

end BehaviorTree
