import BehaviorTree.Proofs.Abort
import BehaviorTree.Proofs.Cursor
import BehaviorTree.Proofs.Numerals

/-! # Paths identify nodes

The path of a node is the kind of the root and, for every step down, a slash, the index of the
child, a colon and the kind of the child. Kinds are free texts and stand there as they are, so a
path cannot be taken apart by its slashes and colons. It can be followed from the root down, though:
the kind of the node that has been reached is known from the tree, the digits after the next slash
end at the colon since no digit is one, and the index that they spell leads to one child, whose kind
is known again. So no two positions of a tree have the same path (`Spec.position_eq_of_path_eq`),
and the path of an error leads to the one node that it is about. -/

namespace BehaviorTree

/-! ## One step down -/

/-- The digits of a number end where a colon follows them. -/
theorem takeWhile_isDigit_toDigits (n : Nat) (rest : List Char) :
    (Nat.toDigits 10 n ++ ':' :: rest).takeWhile Char.isDigit = Nat.toDigits 10 n := by
  have hdigits : ∀ c ∈ Nat.toDigits 10 n, c.isDigit = true := fun c =>
    Text.isDigit_of_mem_toDigits
  rw [List.takeWhile_append_of_pos hdigits, List.takeWhile_cons_of_neg (by decide), List.append_nil]

theorem toList_step (path : String) (index : Nat) (kind : String) :
    (path ++ "/" ++ toString index ++ ":" ++ kind).toList =
      path.toList ++ '/' :: (Nat.toDigits 10 index ++ ':' :: kind.toList) := by
  simp

/-- Paths that lead through different children of a node are different, whatever the kinds of the
children are and however the paths go on. -/
theorem index_eq_of_step {path kind kind' : String} {i j : Nat} {rest rest' : List Char}
    (h : (path ++ "/" ++ toString i ++ ":" ++ kind).toList ++ rest =
      (path ++ "/" ++ toString j ++ ":" ++ kind').toList ++ rest') : i = j := by
  have hsteps : Nat.toDigits 10 i ++ ':' :: (kind.toList ++ rest) =
      Nat.toDigits 10 j ++ ':' :: (kind'.toList ++ rest') := by
    simpa [toList_step, List.append_assoc] using h
  have hdigits : Nat.toDigits 10 i = Nat.toDigits 10 j := by
    simpa only [takeWhile_isDigit_toDigits] using congrArg (List.takeWhile Char.isDigit) hsteps
  exact Text.toDigits_injective hdigits

/-! ## The whole way down -/

namespace Spec

variable {config : Config} {spec : Spec} {path : String} {position : Position} {site : Site}

/-- The path of a node begins with the path of every node above it. -/
theorem exists_path_eq_append (h : spec.site? path position = some site) :
    ∃ rest, site.path.toList = path.toList ++ rest := by
  induction position generalizing path spec with
  | nil =>
      obtain rfl : ⟨spec.head, path⟩ = site := Option.some.inj h
      exact ⟨[], (List.append_nil _).symm⟩
  | cons index below ih =>
      rw [site?, Option.bind_eq_some_iff] at h
      obtain ⟨child, -, h⟩ := h
      obtain ⟨rest, hrest⟩ := ih h
      rw [hrest, toList_step, List.append_assoc]
      exact ⟨_, rfl⟩

/-- A node below another one has a longer path. -/
theorem path_ne_of_site?_cons {index : Nat}
    (h : spec.site? path (index :: position) = some site) : site.path ≠ path := by
  rw [site?, Option.bind_eq_some_iff] at h
  obtain ⟨child, -, h⟩ := h
  obtain ⟨rest, hrest⟩ := exists_path_eq_append h
  intro heq
  have hlength := congrArg List.length hrest
  simp only [heq, toList_step, List.length_append, List.length_cons] at hlength
  omega

/-- No two positions have the same path. -/
theorem position_eq_of_path_eq {position' : Position} {site' : Site}
    (h : spec.site? path position = some site) (h' : spec.site? path position' = some site')
    (hpath : site.path = site'.path) : position = position' := by
  induction position generalizing path spec position' with
  | nil =>
      obtain rfl : ⟨spec.head, path⟩ = site := Option.some.inj h
      cases position' with
      | nil => rfl
      | cons index' below' => exact absurd hpath.symm (path_ne_of_site?_cons h')
  | cons index below ih =>
      cases position' with
      | nil =>
          obtain rfl : ⟨spec.head, path⟩ = site' := Option.some.inj h'
          exact absurd hpath (path_ne_of_site?_cons h)
      | cons index' below' =>
          rw [site?, Option.bind_eq_some_iff] at h h'
          obtain ⟨child, hchild, h⟩ := h
          obtain ⟨child', hchild', h'⟩ := h'
          obtain ⟨rest, hrest⟩ := exists_path_eq_append h
          obtain ⟨rest', hrest'⟩ := exists_path_eq_append h'
          -- The same index leads to the same child, so both paths go on from the same text.
          obtain rfl : index = index' := index_eq_of_step (by rw [← hrest, ← hrest', hpath])
          obtain rfl : child = child' := Option.some.inj (hchild.symm.trans hchild')
          rw [ih h h']

/-- The node at a position of a description has this path. -/
def HasPath (spec : Spec) (position : Position) (path : String) : Prop :=
  ∃ site, spec.site? spec.kind position = some site ∧ site.path = path

theorem HasPath.iff_eq (h : spec.HasPath position path) {other : Position} :
    spec.HasPath other path ↔ other = position := by
  constructor
  · rintro ⟨site', hsite', hpath'⟩
    obtain ⟨site, hsite, hpath⟩ := h
    exact position_eq_of_path_eq hsite' hsite (hpath'.trans hpath.symm)
  · rintro rfl
    exact h

/-- The error of a compilation has the path of a node that it is about. -/
theorem exists_fault_of_compile_eq_error {e : CompileError} (h : spec.compile config = .error e) :
    ∃ position site, spec.site? spec.kind position = some site ∧ site.fault? config = some e ∧
      spec.HasPath position e.path := by
  obtain ⟨before, site, after, hsites, hfault, -⟩ :=
    List.findSome?_eq_some_iff.1 (compile_eq_error_iff.1 h)
  have hmem : site ∈ spec.sites spec.kind := by
    rw [hsites]
    exact List.mem_append_right before List.mem_cons_self
  obtain ⟨position, hsite⟩ := mem_sites_iff.1 hmem
  exact ⟨position, site, hsite, hfault, site, hsite, (Site.path_of_fault? hfault).symm⟩

/-- A leaf of a compiled tree carries the path of the node that it was compiled from. -/
theorem hasPath_of_leaf {root : Node} {role : Role} {leaf : Leaf}
    (hcompile : spec.compile config = .ok root)
    (hleaf : root.at? position = some (.leaf role leaf)) : spec.HasPath position leaf.path := by
  have hmirrors := mirrors_of_compileAt hcompile position
  rw [hleaf] at hmirrors
  generalize hsite : spec.site? spec.kind position = found at hmirrors
  cases hmirrors with
  | some hnode =>
      cases hnode with
      | leaf category arity capability kwargs hpath => exact ⟨_, hsite, hpath.symm⟩

end Spec

/-! ## Paths of errors -/

theorem Evaluation.Aborts.path_eq {σ : Type} {agent : Agent σ} {evaluation : Evaluation σ}
    {e : TickError} (h : evaluation.Aborts agent e) : e.path = evaluation.leaf.path := by
  cases h with
  | missing lookup => rfl
  | failed role lookup invoked => rfl

namespace Tree

variable {σ : Type}

/-- A tick is aborted by a leaf of the tree. -/
theorem exists_leaf_of_outcome_eq_error {agent : Agent σ} {tree : Tree} {state : σ} {e : TickError}
    (h : (tree.tick agent state).outcome = .error e) :
    ∃ position, ∃ last ∈ (tree.evaluations agent state).getLast?, last.Aborts agent e ∧
      tree.root.at? position = some (.leaf last.role last.leaf) := by
  rw [outcome_tick, Dialogue.outcome_follow_eq_error_iff, ← evaluations_eq_dialogue] at h
  obtain ⟨last, hlast, hverdict⟩ := h
  obtain ⟨position, hleaf⟩ :=
    exists_leaf_of_mem_evaluations agent tree state (List.mem_of_getLast? hlast)
  exact ⟨position, last, hlast, Evaluation.aborts_iff.2 hverdict, hleaf⟩

/-- Whatever the kinds in a description are, no two of its positions have the same path. So the path
in an error of its compilation is that of one node only, the one whose fault the error is. The
leaves of the tree that it compiles to all have different paths, whatever ticks there have been. The
path in an error of a tick is that of one node only, the leaf that aborts the tick. -/
theorem paths_identify_nodes (config : Config) (spec : Spec) :
    (∀ first second path, spec.HasPath first path → spec.HasPath second path → first = second) ∧
    (∀ e, spec.compile config = .error e → ∃ position site,
      spec.site? spec.kind position = some site ∧ site.fault? config = some e ∧
        ∀ other, spec.HasPath other e.path ↔ other = position) ∧
    ∀ root tree, spec.compile config = .ok root → Reaches (.ofRoot root) tree →
      (∀ first second role role' leaf leaf', tree.root.at? first = some (.leaf role leaf) →
        tree.root.at? second = some (.leaf role' leaf') → leaf.path = leaf'.path →
          first = second) ∧
      ∀ (σ : Type) (agent : Agent σ) (state : σ) e, (tree.tick agent state).outcome = .error e →
        ∃ position, ∃ last ∈ (tree.evaluations agent state).getLast?, last.Aborts agent e ∧
          tree.root.at? position = some (.leaf last.role last.leaf) ∧
          ∀ other, spec.HasPath other e.path ↔ other = position := by
  refine ⟨fun first second path hfirst hsecond => hsecond.iff_eq.1 hfirst, ?_, ?_⟩
  · intro e h
    obtain ⟨position, site, hsite, hfault, hpath⟩ := Spec.exists_fault_of_compile_eq_error h
    exact ⟨position, site, hsite, hfault, fun other => hpath.iff_eq⟩
  · intro root tree hcompile hreached
    have hfresh : tree.root.fresh = root :=
      hreached.fresh_eq.trans (Spec.fresh_of_compile hcompile)
    have hpaths : ∀ position role leaf, tree.root.at? position = some (.leaf role leaf) →
        spec.HasPath position leaf.path := by
      intro position role leaf hleaf
      exact Spec.hasPath_of_leaf hcompile (Node.leaf_at?_of_fresh_eq hfresh hleaf)
    refine ⟨?_, ?_⟩
    · intro first second role role' leaf leaf' hfirst hsecond heq
      have hpath : spec.HasPath second leaf.path := by
        rw [heq]
        exact hpaths second role' leaf' hsecond
      exact hpath.iff_eq.1 (hpaths first role leaf hfirst)
    · intro σ agent state e h
      obtain ⟨position, last, hlast, haborts, hleaf⟩ := exists_leaf_of_outcome_eq_error h
      have hpath : spec.HasPath position e.path := by
        rw [haborts.path_eq]
        exact hpaths position last.role last.leaf hleaf
      exact ⟨position, last, hlast, haborts, hleaf, fun other => hpath.iff_eq⟩

/-- The kind of the first leaf reads like a way down, and the other two ask for the same capability.
It is there for one of them; the path of the error is that of the other. -/
theorem paths_identify_nodes_same_capability :
    ∃ (config : Config) (spec : Spec) (root : Node) (agent : Agent Nat) (e : TickError),
      spec.compile config = .ok root ∧ spec.HasPath [0] "Parallel/0:Scan/1:Scan" ∧
      (((ofRoot root).tick agent 0).outcome = .error e) ∧ e.path = "Parallel/2:Sequence/0:Scan" ∧
      ∀ other, spec.HasPath other e.path ↔ other = [2, 0] := by
  let spec := (Spec.composite "Parallel").withChildren [.action "Scan/1:Scan", .condition "Scan",
    (Spec.composite "Sequence").withChild (.condition "Scan")]
  obtain ⟨root, hcompile⟩ : ∃ root, spec.compile .default = .ok root := ⟨_, rfl⟩
  let found : Capability Nat := ⟨fun state _ => (.ok true, state + 1)⟩
  let agent : Agent Nat := ⟨fun state _ => if state < 2 then some found else none⟩
  let e : TickError := .missingCapability "scan" "Parallel/2:Sequence/0:Scan"
  have herror : ((ofRoot root).tick agent 0).outcome = .error e := by
    cases hcompile
    rfl
  obtain ⟨-, -, hticks⟩ := paths_identify_nodes .default spec
  obtain ⟨position, -, -, -, -, hposition⟩ := (hticks root _ hcompile .refl).2 Nat agent 0 e herror
  have hthird : spec.HasPath [2, 0] e.path := ⟨_, rfl, rfl⟩
  obtain rfl : [2, 0] = position := (hposition _).1 hthird
  exact ⟨.default, spec, root, agent, e, hcompile, ⟨_, rfl, rfl⟩, herror, rfl, hposition⟩

end Tree

end BehaviorTree
