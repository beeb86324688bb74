import BehaviorTree.Load
import BehaviorTree.Proofs.Paths
import BehaviorTree.Proofs.Preorder
import BehaviorTree.Proofs.Reading

/-! # What a compilation completes

A node is complete once all nodes below it are, so a compilation that comes to its end has completed
the nodes in postorder (`Spec.tellOf_compileAt`). One that fails is cut off on the way down to the
first node that is not valid. What stands to the left of that node is complete by then; the nodes
above it are waiting for it, and those after it have not been looked at (`CutOff`). The log shows
enough of each event to tell which one it is (`Event.eq_of_shown_eq`). -/

namespace BehaviorTree

/-! ## Records of completion -/

/-- A record tells of the node at a site: of its path and its category. -/
structure Compiled.TellsOf (compiled : Compiled) (site : Site) : Prop where
  path : compiled.path = site.path
  category : compiled.category.segment = site.category

/-- Records tell of nodes one for one and in order. -/
def TellOf (completed : List Compiled) (nodes : List Placed) : Prop :=
  List.Forall₂ (fun compiled placed => compiled.TellsOf placed.site) completed nodes

section TellOf

variable {completed completed' : List Compiled} {nodes nodes' : List Placed}

theorem TellOf.append (h : TellOf completed nodes) (h' : TellOf completed' nodes') :
    TellOf (completed ++ completed') (nodes ++ nodes') :=
  List.rel_append h h'

theorem TellOf.singleton {compiled : Compiled} {placed : Placed}
    (h : compiled.TellsOf placed.site) : TellOf [compiled] [placed] :=
  .cons h .nil

theorem tellOf_map_below_iff {index : Nat} :
    TellOf completed (nodes.map (.below index)) ↔ TellOf completed nodes := by
  unfold TellOf
  rw [List.forall₂_map_right_iff]
  rfl

end TellOf

theorem Compilation.completed_bind {α β : Type} (first : Compilation α)
    (next : α → Compilation β) : (first >>= next).completed =
      first.completed ++ match first.result with
        | .ok a => (next a).completed
        | .error _ => [] := by
  show (first.andThen next).completed = _
  unfold andThen
  cases first.result with
  | ok a => rfl
  | error e => exact (List.append_nil _).symm

theorem Mirrors.segment_category {config : Config} {site : Site} {node : Node}
    (h : Mirrors config site node) : node.category.segment = site.category := by
  cases h with
  | composite category => exact category.symm
  | loop category => exact category.symm
  | leaf category => exact category.symm

theorem Plan.category_build (plan : Plan) (nodes : List Node) :
    (plan.build nodes).category = plan.category := by
  cases plan with
  | composite policy => rfl
  | leaf role bound => rfl
  | loop count =>
      match nodes with
      | [] => rfl
      | [_] => rfl
      | _ :: _ :: _ => rfl

theorem Category.eq_of_segment_eq {category category' : Category}
    (h : category.segment = category'.segment) : category = category' := by
  apply Option.some.inj
  rw [← ofSegment?_segment category, h, ofSegment?_segment]

/-! ## What the log shows -/

theorem Category.eq_of_display_eq {category other : Category}
    (h : category.display = other.display) : category = other := by
  cases category <;> cases other <;> first | rfl | exact absurd h (by decide)

/-- What the log shows of an event tells which event it is, but for the error of an abort, of which
only the wording is shown. -/
theorem Event.eq_of_shown_eq {a b : Event} (hmessage : a.message = b.message)
    (hfields : a.fields = b.fields) : a = b ∨ ∃ tick e e',
      a = .tickAborted tick e ∧ b = .tickAborted tick e' ∧ e.message = e'.message := by
  -- The wordings of events of different kinds differ; of one kind, the details are compared.
  cases a <;> cases b <;> simp only [message, String.reduceEq] at hmessage
  all_goals simp only [fields, List.cons.injEq, Prod.mk.injEq, true_and, and_true] at hfields
  case compiled.compiled node other =>
      obtain ⟨path, category⟩ := node
      obtain ⟨path', category'⟩ := other
      rw [compiled.injEq, Compiled.mk.injEq]
      exact .inl ⟨hfields.1, Category.eq_of_display_eq hfields.2⟩
  case loaded.loaded path nodes path' nodes' =>
      rw [loaded.injEq]
      exact .inl ⟨hfields.1, Text.eq_of_toString_eq hfields.2⟩
  case actionFailed.actionFailed d d' =>
      obtain ⟨tick, capability, reason⟩ := d
      obtain ⟨tick', capability', reason'⟩ := d'
      rw [actionFailed.injEq, Diagnostic.mk.injEq]
      exact .inl ⟨UInt64.toNat.inj (Text.eq_of_toString_eq hfields.1), hfields.2⟩
  case tickAborted.tickAborted tick e tick' e' =>
      obtain rfl := UInt64.toNat.inj (Text.eq_of_toString_eq hfields.1)
      exact .inr ⟨tick, e, e', rfl, rfl, hfields.2⟩

/-- The name of a category in messages is its segment in lower case, without the plural. -/
theorem Category.lowercase_segment (category : Category) :
    Text.lowercase category.segment = category.display ++ "s" := by
  cases category <;> decide +kernel

/-- Of a node that is complete the log shows its path and its category. -/
theorem Compiled.TellsOf.fields_eq {compiled : Compiled} {site : Site}
    (h : compiled.TellsOf site) : ∃ category : String,
      (Event.compiled compiled).fields = [("path", site.path), ("category", category)] ∧
        Text.lowercase site.category = category ++ "s" := by
  refine ⟨compiled.category.display, ?_, ?_⟩
  · rw [Event.fields, h.path]
  · rw [← h.category, Category.lowercase_segment]

namespace Spec

variable {config : Config} {path : String} {index : Nat}

/-! ## What a compilation records -/

theorem completed_compileAt (config : Config) (path : String) (spec : Spec) :
    (spec.compileAt config path).completed = match spec.plan config path with
      | .error _ => []
      | .ok plan => (compileChildren config path 0 spec.children).completed ++
          match (compileChildren config path 0 spec.children).result with
          | .error _ => []
          | .ok _ => [⟨path, plan.category⟩] := by
  obtain ⟨space, category, kind, attributes, children⟩ := spec
  rw [compileAt, Compilation.completed_bind]
  cases hplan : plan config path ⟨space, category, kind, attributes, children⟩ with
  | error e => rfl
  | ok plan =>
      show [] ++ (_ >>= _ : Compilation Node).completed = _
      rw [List.nil_append, Compilation.completed_bind]
      cases (compileChildren config path 0 children).result <;> rfl

theorem completed_compileChildren_cons (config : Config) (path : String) (index : Nat)
    (child : Spec) (rest : List Spec) :
    (compileChildren config path index (child :: rest)).completed =
      (child.compileAt config (path ++ "/" ++ toString index ++ ":" ++ child.kind)).completed ++
        match (child.compileAt config
          (path ++ "/" ++ toString index ++ ":" ++ child.kind)).result with
        | .error _ => []
        | .ok _ => (compileChildren config path (index + 1) rest).completed := by
  rw [compileChildren, childPath, Compilation.completed_bind]
  cases (child.compileAt config
    (path ++ "/" ++ toString index ++ ":" ++ child.kind)).result with
  | error e => rfl
  | ok node =>
      dsimp only
      rw [Compilation.completed_bind]
      cases (compileChildren config path (index + 1) rest).result with
      | error e => exact congrArg _ (List.append_nil _)
      | ok nodes => exact congrArg _ (List.append_nil _)

theorem tellsOf_of_plan {spec : Spec} {plan : Plan} {nodes : List Node}
    (hplan : spec.plan config path = .ok plan) (hnodes : nodes.length = spec.children.length) :
    (Compiled.mk path plan.category).TellsOf ⟨spec.head, path⟩ := by
  obtain ⟨hmirrors, -⟩ := mirrors_of_plan hplan hnodes
  refine ⟨rfl, ?_⟩
  rw [← plan.category_build nodes]
  exact hmirrors.segment_category

theorem tellOf_compileChildren {specs : List Spec} {nodes : List Node}
    (heach : ∀ child ∈ specs, ∀ path node, (child.compileAt config path).result = .ok node →
      TellOf (child.compileAt config path).completed (child.postorderAt path))
    (h : (compileChildren config path index specs).result = .ok nodes) :
    TellOf (compileChildren config path index specs).completed
      (postorderFrom path index specs) := by
  induction specs generalizing index nodes with
  | nil =>
      rw [compileChildren, postorderFrom]
      exact .nil
  | cons child rest ih =>
      rw [compileChildren_result_cons, CompileError.bind_eq_ok_iff] at h
      obtain ⟨node, hnode, h⟩ := h
      rw [CompileError.bind_eq_ok_iff] at h
      obtain ⟨others, hothers, -⟩ := h
      rw [completed_compileChildren_cons, hnode, postorderFrom]
      apply TellOf.append
      · exact tellOf_map_below_iff.2 (heach child List.mem_cons_self _ node hnode)
      · exact ih (fun other hother => heach other (List.mem_cons_of_mem _ hother)) hothers

/-- A compilation that succeeds has completed all nodes in postorder. -/
theorem tellOf_compileAt {spec : Spec} {node : Node}
    (h : (spec.compileAt config path).result = .ok node) :
    TellOf (spec.compileAt config path).completed (spec.postorderAt path) := by
  induction spec using child_induction generalizing path node with
  | step spec ih =>
      rw [compileAt_result, CompileError.bind_eq_ok_iff] at h
      obtain ⟨plan, hplan, h⟩ := h
      rw [CompileError.bind_eq_ok_iff] at h
      obtain ⟨nodes, hnodes, -⟩ := h
      rw [completed_compileAt, hplan, postorderAt_eq]
      dsimp only
      rw [hnodes]
      apply TellOf.append
      · exact tellOf_compileChildren (fun child hchild path node => ih child hchild) hnodes
      · exact .singleton (tellsOf_of_plan hplan (compileChildren_eq_ok hnodes).1)

/-! ## Where a compilation is cut off -/

theorem valid_of_compileAt_eq_ok {spec : Spec} {node : Node}
    (h : (spec.compileAt config path).result = .ok node) :
    ∀ placed ∈ spec.preorderAt path, placed.site.Valid config := by
  intro placed hplaced
  have hnone := CompileError.of?_eq_none_iff.2 ⟨node, h⟩
  rw [of?_compileAt, List.findSome?_eq_none_iff] at hnone
  exact Site.fault?_eq_none_iff.1 (hnone _ (mem_sites_of_site? (site?_of_mem_preorderAt hplaced)))

end Spec

/-- Some nodes have been completed when a node turns out not to be valid, the first one in preorder:
those to the left of it, in postorder. -/
structure CutOff (config : Config) (completed : List Compiled) (preorder postorder : List Placed)
    (failing : Placed) : Prop where
  occurs : failing ∈ preorder
  invalid : ¬ failing.site.Valid config
  first : ∀ placed ∈ preorder, placed.position < failing.position → placed.site.Valid config
  completed : TellOf completed (postorder.filter (·.position.LeftOf failing.position))

namespace Spec

variable {config : Config} {path : String} {index : Nat}

section Filter

variable {i j : Nat} {cut : Position}

theorem filter_map_below (nodes : List Placed) :
    (nodes.map (Placed.below i)).filter (·.position.LeftOf (i :: cut)) =
      (nodes.filter (·.position.LeftOf cut)).map (Placed.below i) := by
  rw [List.filter_map]
  congr 2
  funext placed
  simp [Position.cons_leftOf_cons_self]

/-- What stands below an earlier child is to the left of what stands below a later one. -/
theorem filter_map_below_of_lt (h : i < j) (nodes : List Placed) :
    (nodes.map (Placed.below i)).filter (·.position.LeftOf (j :: cut)) =
      nodes.map (Placed.below i) := by
  rw [List.filter_eq_self]
  intro placed hplaced
  obtain ⟨held, -, rfl⟩ := List.mem_map.1 hplaced
  exact decide_eq_true (Position.cons_leftOf_cons_of_lt h)

theorem filter_postorderFrom_of_lt (h : j < i) (specs : List Spec) :
    (postorderFrom path i specs).filter (·.position.LeftOf (j :: cut)) = [] := by
  rw [List.filter_eq_nil_iff]
  intro placed hplaced
  obtain ⟨k, child, below, -, -, rfl⟩ :=
    exists_of_mem_preorderFrom ((perm_postorderFrom specs path i).mem_iff.1 hplaced)
  rw [decide_eq_true_eq]
  exact Position.not_cons_leftOf_cons_of_gt (by omega)

theorem filter_leftOf_nil (nodes : List Placed) : nodes.filter (·.position.LeftOf []) = [] := by
  rw [List.filter_eq_nil_iff]
  intro placed _
  rw [decide_eq_true_eq]
  exact Position.not_leftOf_nil

end Filter

/-- A cut in the first of several children: nothing has been recorded after that child. -/
theorem cutOff_in_first {child : Spec} {completed : List Compiled} {failing : Placed}
    (hcut : CutOff config completed
      (child.preorderAt (path ++ "/" ++ toString index ++ ":" ++ child.kind))
      (child.postorderAt (path ++ "/" ++ toString index ++ ":" ++ child.kind)) failing)
    (rest : List Spec) :
    CutOff config completed (preorderFrom path index (child :: rest))
      (postorderFrom path index (child :: rest)) (failing.below index) := by
  rw [preorderFrom, postorderFrom]
  refine ⟨?_, hcut.invalid, ?_, ?_⟩
  · exact List.mem_append_left _ (List.mem_map_of_mem hcut.occurs)
  · intro placed hplaced hlt
    rcases List.mem_append.1 hplaced with hhere | hlater
    · obtain ⟨below, hbelow, rfl⟩ := List.mem_map.1 hhere
      rcases List.cons_lt_cons_iff.1 hlt with hindex | ⟨-, hlt⟩
      · exact absurd hindex (Nat.lt_irrefl _)
      · exact hcut.first below hbelow hlt
    · obtain ⟨i, -, below, -, -, rfl⟩ := exists_of_mem_preorderFrom hlater
      rcases List.cons_lt_cons_iff.1 hlt with hindex | ⟨hindex, -⟩ <;> omega
  · rw [List.filter_append, Placed.position_below, filter_map_below,
      filter_postorderFrom_of_lt (Nat.lt_succ_self index), List.append_nil]
    exact tellOf_map_below_iff.2 hcut.completed

/-- A cut after the first of several children: all of that child is to the left of it. -/
theorem cutOff_after_first {child : Spec} {node : Node} {rest : List Spec}
    {completed : List Compiled} {failing : Placed}
    (hnode : (child.compileAt config
      (path ++ "/" ++ toString index ++ ":" ++ child.kind)).result = .ok node)
    (hcut : CutOff config completed (preorderFrom path (index + 1) rest)
      (postorderFrom path (index + 1) rest) failing) :
    CutOff config
      ((child.compileAt config
        (path ++ "/" ++ toString index ++ ":" ++ child.kind)).completed ++ completed)
      (preorderFrom path index (child :: rest)) (postorderFrom path index (child :: rest))
      failing := by
  rw [preorderFrom, postorderFrom]
  refine ⟨List.mem_append_right _ hcut.occurs, hcut.invalid, ?_, ?_⟩
  · intro placed hplaced hlt
    rcases List.mem_append.1 hplaced with hhere | hlater
    · obtain ⟨below, hbelow, rfl⟩ := List.mem_map.1 hhere
      exact valid_of_compileAt_eq_ok hnode below hbelow
    · exact hcut.first placed hlater hlt
  · obtain ⟨i, -, below, -, -, rfl⟩ := exists_of_mem_preorderFrom hcut.occurs
    rw [List.filter_append, Placed.position_below, filter_map_below_of_lt (by omega)]
    exact (tellOf_map_below_iff.2 (tellOf_compileAt hnode)).append hcut.completed

/-- The cut is in one of the children: those before it are complete, those after it are untouched.
-/
theorem exists_cutOff_of_compileChildren {specs : List Spec} {e : CompileError}
    (heach : ∀ child ∈ specs, ∀ path, (child.compileAt config path).result = .error e →
      ∃ failing, CutOff config (child.compileAt config path).completed (child.preorderAt path)
        (child.postorderAt path) failing)
    (h : (compileChildren config path index specs).result = .error e) :
    ∃ failing, CutOff config (compileChildren config path index specs).completed
      (preorderFrom path index specs) (postorderFrom path index specs) failing := by
  induction specs generalizing index with
  | nil =>
      rw [compileChildren] at h
      cases h
  | cons child rest ih =>
      rw [compileChildren_result_cons, bind_error_iff] at h
      rw [completed_compileChildren_cons]
      rcases h with herror | ⟨node, hnode, h⟩
      · obtain ⟨failing, hcut⟩ := heach child List.mem_cons_self _ herror
        rw [herror, List.append_nil]
        exact ⟨failing.below index, cutOff_in_first hcut rest⟩
      · rw [bind_error_iff] at h
        rcases h with herror | ⟨others, -, h⟩
        · obtain ⟨failing, hcut⟩ :=
            ih (fun other hother => heach other (List.mem_cons_of_mem _ hother)) herror
          rw [hnode]
          exact ⟨failing, cutOff_after_first hnode hcut⟩
        · cases h

theorem cutOff_at_root {spec : Spec} (hinvalid : ¬ Site.Valid config ⟨spec.head, path⟩) :
    CutOff config [] (spec.preorderAt path) (spec.postorderAt path) ⟨[], spec.head, path⟩ := by
  refine ⟨?_, hinvalid, ?_, ?_⟩
  · rw [preorderAt_eq]
    exact List.mem_cons_self
  · intro placed _ hlt
    exact absurd hlt (List.not_lt_nil _)
  · rw [filter_leftOf_nil]
    exact .nil

/-- A cut below a node: the node lies above it and is not complete. -/
theorem cutOff_below_root {spec : Spec} {completed : List Compiled} {failing : Placed}
    (hvalid : Site.Valid config ⟨spec.head, path⟩)
    (hcut : CutOff config completed (preorderFrom path 0 spec.children)
      (postorderFrom path 0 spec.children) failing) :
    CutOff config completed (spec.preorderAt path) (spec.postorderAt path) failing := by
  rw [preorderAt_eq, postorderAt_eq]
  refine ⟨List.mem_cons_of_mem _ hcut.occurs, hcut.invalid, ?_, ?_⟩
  · intro placed hplaced hlt
    rcases List.mem_cons.1 hplaced with rfl | hplaced
    · exact hvalid
    · exact hcut.first placed hplaced hlt
  · have habove : [(⟨[], spec.head, path⟩ : Placed)].filter
        (·.position.LeftOf failing.position) = [] := by
      simp [Position.not_nil_leftOf]
    rw [List.filter_append, habove, List.append_nil]
    exact hcut.completed

/-- A compilation that fails is cut off at the first node that is not valid. -/
theorem exists_cutOff_of_compileAt {spec : Spec} {e : CompileError}
    (h : (spec.compileAt config path).result = .error e) :
    ∃ failing, CutOff config (spec.compileAt config path).completed (spec.preorderAt path)
      (spec.postorderAt path) failing := by
  induction spec using child_induction generalizing path with
  | step spec ih =>
      rw [compileAt_result, bind_error_iff] at h
      rw [completed_compileAt]
      rcases h with herror | ⟨plan, hplan, h⟩
      · have hinvalid : ¬ Site.Valid config ⟨spec.head, path⟩ := by
          intro hvalid
          have hnone := Site.fault?_eq_none_iff.2 hvalid
          rw [← of?_plan, herror] at hnone
          cases hnone
        rw [herror]
        exact ⟨_, cutOff_at_root hinvalid⟩
      · have hvalid : Site.Valid config ⟨spec.head, path⟩ := by
          rw [← Site.fault?_eq_none_iff, ← of?_plan, hplan]
          rfl
        rw [bind_error_iff] at h
        rcases h with herror | ⟨nodes, -, h⟩
        · obtain ⟨failing, hcut⟩ := exists_cutOff_of_compileChildren
            (fun child hchild path => ih child hchild) herror
          rw [hplan]
          dsimp only
          rw [herror, List.append_nil]
          exact ⟨failing, cutOff_below_root hvalid hcut⟩
        · cases h

section CutOff

variable {spec : Spec} {completed : List Compiled} {failing placed : Placed}
  {before after : List Placed}

/-- Before the node of the cut there are only valid ones in preorder. -/
theorem valid_of_before_cut
    (hcut : CutOff config completed (spec.preorderAt path) (spec.postorderAt path) failing)
    (hsplit : spec.preorderAt path = before ++ failing :: after) :
    ∀ placed ∈ before, placed.site.Valid config := by
  intro placed hplaced
  have hpre : placed ∈ spec.preorderAt path := by
    rw [hsplit]
    exact List.mem_append_left _ hplaced
  have hearlier : placed.position < failing.position :=
    (mem_before_iff hsplit hpre).1 (List.mem_map_of_mem hplaced)
  exact hcut.first placed hpre hearlier

/-- A record tells of a node to the left of the cut, and its path leaves no choice which one. -/
theorem leftOf_cut_of_path_eq
    (hcut : CutOff config completed (spec.preorderAt path) (spec.postorderAt path) failing)
    {compiled : Compiled} (hcompiled : compiled ∈ completed)
    (hplaced : placed ∈ spec.preorderAt path) (hpath : compiled.path = placed.site.path) :
    placed.position.LeftOf failing.position := by
  obtain ⟨told, htold, htells⟩ := exists_of_forall₂_of_mem hcut.completed hcompiled
  obtain ⟨hpost, hleft⟩ := List.mem_filter.1 htold
  have hpre : told ∈ spec.preorderAt path := (perm_postorderAt spec path).mem_iff.1 hpost
  have hposition : told.position = placed.position :=
    position_eq_of_path_eq (site?_of_mem_preorderAt hpre) (site?_of_mem_preorderAt hplaced)
      (htells.path.symm.trans hpath)
  rw [← hposition]
  exact of_decide_eq_true hleft

/-- The nodes that are finished at the cut are those to the left of it. -/
theorem filter_finished (hsplit : spec.preorderAt path = before ++ failing :: after) :
    (spec.postorderAt path).filter (·.position ∈
        (before.filter fun placed => ¬ placed.position <+: failing.position).map (·.position)) =
      (spec.postorderAt path).filter (·.position.LeftOf failing.position) := by
  apply List.filter_congr
  intro placed hplaced
  rw [decide_eq_decide]
  exact mem_finished_iff hsplit ((perm_postorderAt spec path).mem_iff.1 hplaced)

end CutOff

end Spec

/-! ## What loading a file tells -/

namespace Tree

variable {config : Config} {path : String} {file : File}

theorem load_of_read {text : String} {spec : Spec} (htext : file.text = .ok text)
    (hread : Document.read config text = .ok spec) :
    load config path file = match spec.compile config with
      | .ok root =>
          ((spec.compilation config).completed.map .compiled ++ [.loaded path root.size],
            .ok (.ofRoot root))
      | .error e => ((spec.compilation config).completed.map .compiled, .error (.refused e)) := by
  simp only [load, htext, ofDocument, hread, ofSpec, Spec.compile]
  cases (spec.compilation config).result <;> rfl

theorem load_of_not_read
    (h : ¬ ∃ text spec, file.text = .ok text ∧ Document.read config text = .ok spec) :
    (load config path file).1 = [] ∧ ∃ e, (load config path file).2 = .error e := by
  cases htext : file.text with
  | error fault =>
      unfold load
      rw [htext]
      exact ⟨rfl, _, rfl⟩
  | ok text =>
      cases hread : Document.read config text with
      | ok spec => exact absurd ⟨text, spec, htext, hread⟩ h
      | error e =>
          unfold load ofDocument
          rw [htext]
          dsimp only
          rw [hread]
          exact ⟨rfl, _, rfl⟩

end Tree

namespace Spec

variable {config : Config} {spec : Spec}

/-- A record is of a node of the compiled tree and has its category. -/
theorem exists_node_of_tellsOf {root : Node} {placed : Placed} {compiled : Compiled}
    (hcompile : spec.compile config = .ok root) (hplaced : placed ∈ spec.postorderPlaced)
    (htells : compiled.TellsOf placed.site) :
    ∃ node, root.at? placed.position = some node ∧ compiled.category = node.category := by
  have hsite : spec.site? spec.kind placed.position = some placed.site :=
    site?_of_mem_preorderAt ((perm_postorderAt spec spec.kind).mem_iff.1 hplaced)
  have hmirrors := mirrors_of_compileAt hcompile placed.position
  rw [hsite] at hmirrors
  generalize root.at? placed.position = found at hmirrors ⊢
  cases hmirrors with
  | some hnode =>
      refine ⟨_, rfl, Category.eq_of_segment_eq ?_⟩
      rw [htells.category, hnode.segment_category]

/-- The log of a compilation. One that succeeds has told of every node of the tree once, in
postorder, with its path and its category. One that fails has told, in postorder, of the nodes that
come before the first invalid one in preorder and do not lie above it; so no record has the path of
the failing node, of one above it or of one after it. Loading a file tells of nothing else, but for
one more event with the number of nodes, which comes last, exactly if the file gives a tree. -/
theorem tells_completed_nodes (config : Config) (spec : Spec) :
    let completed := (spec.compilation config).completed
    (∀ root, spec.compile config = .ok root →
      completed.length = root.size ∧
      List.Forall₂ (fun compiled placed => compiled.TellsOf placed.site ∧
          ∃ node, root.at? placed.position = some node ∧ compiled.category = node.category)
        completed spec.postorderPlaced) ∧
    (∀ e, spec.compile config = .error e → ∃ before failing after,
      spec.preorderPlaced = before ++ failing :: after ∧
      (∀ placed ∈ before, placed.site.Valid config) ∧ ¬ failing.site.Valid config ∧
      let finished :=
        (before.filter fun placed => ¬ placed.position <+: failing.position).map (·.position)
      TellOf completed (spec.postorderPlaced.filter (·.position ∈ finished)) ∧
      ∀ compiled ∈ completed, ∀ placed ∈ spec.preorderPlaced,
        compiled.path = placed.site.path → placed.position ∈ finished) ∧
    ∀ path (file : File),
      (∀ text, file.text = .ok text → Document.read config text = .ok spec →
        Tree.load config path file = match spec.compile config with
          | .ok root => (completed.map .compiled ++ [.loaded path root.size], .ok (.ofRoot root))
          | .error e => (completed.map .compiled, .error (.refused e))) ∧
      ((¬ ∃ text spec, file.text = .ok text ∧ Document.read config text = .ok spec) →
        (Tree.load config path file).1 = [] ∧ ∃ e, (Tree.load config path file).2 = .error e) := by
  intro completed
  refine ⟨?_, ?_, ?_⟩
  · intro root hcompile
    have htell : TellOf completed spec.postorderPlaced := tellOf_compileAt hcompile
    constructor
    · calc completed.length
          = spec.postorderPlaced.length := htell.length_eq
        _ = spec.preorderPlaced.length := (perm_postorderAt spec spec.kind).length_eq
        _ = spec.size := length_preorderAt spec spec.kind
        _ = root.size := (size_of_compileAt hcompile).symm
    · apply forall₂_imp_of_mem htell
      intro compiled _ placed hplaced htells
      exact ⟨htells, exists_node_of_tellsOf hcompile hplaced htells⟩
  · intro e hcompile
    obtain ⟨failing, hcut⟩ := exists_cutOff_of_compileAt hcompile
    obtain ⟨before, after, hsplit⟩ := List.append_of_mem hcut.occurs
    refine ⟨before, failing, after, hsplit, valid_of_before_cut hcut hsplit, hcut.invalid, ?_⟩
    intro finished
    rw [postorderPlaced, filter_finished hsplit]
    refine ⟨hcut.completed, ?_⟩
    intro compiled hcompiled placed hplaced hpath
    exact (mem_finished_iff hsplit hplaced).2
      (leftOf_cut_of_path_eq hcut hcompiled hplaced hpath)
  · exact fun path file => ⟨fun text => Tree.load_of_read, Tree.load_of_not_read⟩

/-- The second child of a sequence is a loop without count: the node in the first child is complete
and the first child itself, but neither the sequence nor what is in the loop. -/
theorem tells_completed_nodes_missing_count :
    ∃ (spec : Spec) (e : CompileError) (before after : List Placed) (failing : Placed),
      spec.compile .default = .error e ∧ spec.preorderPlaced = before ++ failing :: after ∧
      (∀ placed ∈ before, placed.site.Valid .default) ∧ ¬ failing.site.Valid .default ∧
      (spec.compilation .default).completed =
        [⟨"Sequence/0:Selector/0:Scan", .condition⟩, ⟨"Sequence/0:Selector", .composite⟩] := by
  let scan := (Spec.composite "Selector").withChild (.condition "Scan")
  let spec := (Spec.composite "Sequence").withChildren
    [scan, (Spec.decorator "Loop").withChild (.action "Attack"), .action "Flee"]
  let e : CompileError := .missingAttribute "Count" "Sequence/1:Loop"
  have hcompile : spec.compile .default = .error e := rfl
  obtain ⟨-, hfails, -⟩ := tells_completed_nodes .default spec
  obtain ⟨before, failing, after, hsplit, hbefore, hfailing, -⟩ := hfails e hcompile
  exact ⟨spec, e, before, after, failing, hcompile, hsplit, hbefore, hfailing, rfl⟩

end Spec

end BehaviorTree
