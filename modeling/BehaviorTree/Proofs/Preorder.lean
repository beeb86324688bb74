import BehaviorTree.Proofs.Position

/-! # Preorder and postorder

The nodes of a description with their positions, each before those below it or each after them. The
two orders are of the same nodes, and preorder is the order of the positions. A node that comes
before another one in preorder is one of those above it or lies altogether to the left of it
(`Position.LeftOf`): in postorder both kinds are told apart, since a node comes after what is below
it. -/

namespace BehaviorTree

namespace Position

/-- A position that comes before another one and does not lie above it. -/
def LeftOf (first second : Position) : Prop :=
  first < second ∧ ¬ first <+: second

instance (first second : Position) : Decidable (LeftOf first second) :=
  inferInstanceAs (Decidable (_ ∧ _))

variable {i j : Nat} {first second : Position}

theorem not_leftOf_nil : ¬ LeftOf first [] := by
  intro h
  exact List.not_lt_nil first h.1

theorem not_nil_leftOf : ¬ LeftOf [] second := by
  intro h
  exact h.2 List.nil_prefix

theorem cons_leftOf_cons_self : LeftOf (i :: first) (i :: second) ↔ LeftOf first second := by
  simp [LeftOf]

theorem cons_leftOf_cons_of_lt (h : i < j) : LeftOf (i :: first) (j :: second) := by
  refine ⟨List.cons_lt_cons_iff.2 (.inl h), ?_⟩
  intro hprefix
  exact Nat.ne_of_lt h (List.cons_prefix_cons.1 hprefix).1

theorem not_cons_leftOf_cons_of_gt (h : j < i) : ¬ LeftOf (i :: first) (j :: second) := by
  rintro ⟨hlt, -⟩
  rcases List.cons_lt_cons_iff.1 hlt with hindex | ⟨hindex, -⟩ <;> omega

end Position

/-! ## The nodes of a description in two orders -/

/-- A node of a description with its position. -/
structure Placed where
  position : Position
  site : Site

/-- A node below a child with this index, seen from the parent. -/
def Placed.below (index : Nat) (placed : Placed) : Placed :=
  ⟨index :: placed.position, placed.site⟩

@[simp] theorem Placed.position_below (index : Nat) (placed : Placed) :
    (placed.below index).position = index :: placed.position := rfl

namespace Spec

mutual

/-- The nodes of a description whose root stands at `path`, each before those below it. -/
def preorderAt (path : String) : Spec → List Placed
  | ⟨space, category, kind, attributes, children⟩ =>
      ⟨[], head ⟨space, category, kind, attributes, children⟩, path⟩ ::
        preorderFrom path 0 children

/-- The nodes below the children of the node at `path` from the one with this index on. -/
def preorderFrom (path : String) (index : Nat) : List Spec → List Placed
  | [] => []
  | child :: rest =>
      (child.preorderAt (path ++ "/" ++ toString index ++ ":" ++ child.kind)).map (.below index) ++
        preorderFrom path (index + 1) rest

end

mutual

/-- The nodes of a description whose root stands at `path`, each after those below it. -/
def postorderAt (path : String) : Spec → List Placed
  | ⟨space, category, kind, attributes, children⟩ =>
      postorderFrom path 0 children ++
        [⟨[], head ⟨space, category, kind, attributes, children⟩, path⟩]

/-- The nodes below the children of the node at `path` from the one with this index on. -/
def postorderFrom (path : String) (index : Nat) : List Spec → List Placed
  | [] => []
  | child :: rest =>
      (child.postorderAt (path ++ "/" ++ toString index ++ ":" ++ child.kind)).map (.below index) ++
        postorderFrom path (index + 1) rest

end

def preorderPlaced (spec : Spec) : List Placed := spec.preorderAt spec.kind

def postorderPlaced (spec : Spec) : List Placed := spec.postorderAt spec.kind

variable {path : String} {index : Nat}

theorem preorderAt_eq (path : String) (spec : Spec) :
    spec.preorderAt path = ⟨[], spec.head, path⟩ :: preorderFrom path 0 spec.children := by
  cases spec
  rfl

theorem postorderAt_eq (path : String) (spec : Spec) :
    spec.postorderAt path = postorderFrom path 0 spec.children ++ [⟨[], spec.head, path⟩] := by
  cases spec
  rfl

mutual

/-- Both orders are of the same nodes. -/
theorem perm_postorderAt : ∀ (spec : Spec) (path : String),
    (spec.postorderAt path).Perm (spec.preorderAt path)
  | ⟨_, _, _, _, children⟩, path => by
      rw [postorderAt_eq, preorderAt_eq]
      exact (List.perm_append_singleton _ _).trans ((perm_postorderFrom children path 0).cons _)

theorem perm_postorderFrom : ∀ (specs : List Spec) (path : String) (index : Nat),
    (postorderFrom path index specs).Perm (preorderFrom path index specs)
  | [], _, _ => by
      rw [postorderFrom, preorderFrom]
  | child :: rest, path, index => by
      rw [postorderFrom, preorderFrom]
      exact ((perm_postorderAt child _).map _).append (perm_postorderFrom rest path (index + 1))

end

mutual

theorem length_preorderAt : ∀ (spec : Spec) (path : String),
    (spec.preorderAt path).length = spec.size
  | ⟨_, _, _, _, children⟩, path => by
      rw [preorderAt_eq, List.length_cons, length_preorderFrom children, size]

theorem length_preorderFrom : ∀ (specs : List Spec) (path : String) (index : Nat),
    (preorderFrom path index specs).length = sizeAll specs
  | [], _, _ => by
      rw [preorderFrom, sizeAll]
      rfl
  | child :: rest, path, index => by
      rw [preorderFrom, List.length_append, List.length_map, length_preorderAt child,
        length_preorderFrom rest, sizeAll]

end

/-- What stands below the children from an index on has a position that starts there. -/
theorem exists_of_mem_preorderFrom {specs : List Spec} {placed : Placed}
    (h : placed ∈ preorderFrom path index specs) :
    ∃ i child below, specs[i]? = some child ∧
      below ∈ child.preorderAt (path ++ "/" ++ toString (index + i) ++ ":" ++ child.kind) ∧
      placed = .below (index + i) below := by
  induction specs generalizing index with
  | nil => simp [preorderFrom] at h
  | cons first rest ih =>
      rw [preorderFrom, List.mem_append, List.mem_map] at h
      rcases h with ⟨below, hbelow, rfl⟩ | h
      · exact ⟨0, first, below, rfl, hbelow, rfl⟩
      · obtain ⟨i, child, below, hchild, hbelow, rfl⟩ := ih h
        refine ⟨i + 1, child, below, hchild, ?_, ?_⟩
        · rwa [Nat.add_assoc, Nat.add_comm 1 i] at hbelow
        · rw [Nat.add_assoc, Nat.add_comm 1 i]

/-- Each node stands at its position. -/
theorem site?_of_mem_preorderAt {spec : Spec} {placed : Placed}
    (h : placed ∈ spec.preorderAt path) : spec.site? path placed.position = some placed.site := by
  induction spec using child_induction generalizing path placed with
  | step spec ih =>
      rw [preorderAt_eq, List.mem_cons] at h
      rcases h with rfl | h
      · rfl
      · obtain ⟨i, child, below, hchild, hbelow, rfl⟩ := exists_of_mem_preorderFrom h
        rw [Nat.zero_add] at hbelow ⊢
        rw [Placed.position_below, site?, hchild]
        exact ih child (List.mem_of_getElem? hchild) hbelow

theorem pairwise_preorderFrom {specs : List Spec}
    (h : ∀ child ∈ specs, ∀ path,
      (child.preorderAt path).Pairwise fun first second => first.position < second.position)
    (path : String) (index : Nat) :
    (preorderFrom path index specs).Pairwise fun first second =>
      first.position < second.position := by
  induction specs generalizing index with
  | nil =>
      rw [preorderFrom]
      exact .nil
  | cons child rest ih =>
      rw [preorderFrom, List.pairwise_append, List.pairwise_map]
      refine ⟨?_, ih (fun other hother => h other (List.mem_cons_of_mem _ hother)) _, ?_⟩
      · apply (h child List.mem_cons_self _).imp
        intro first second hlt
        exact List.cons_lt_cons_iff.2 (.inr ⟨rfl, hlt⟩)
      · intro first hfirst second hsecond
        obtain ⟨below, -, rfl⟩ := List.mem_map.1 hfirst
        obtain ⟨i, -, below', -, -, rfl⟩ := exists_of_mem_preorderFrom hsecond
        exact List.cons_lt_cons_iff.2 (.inl (by omega))

/-- Preorder is the order of the positions. -/
theorem pairwise_preorderAt (path : String) (spec : Spec) :
    (spec.preorderAt path).Pairwise fun first second => first.position < second.position := by
  induction spec using child_induction generalizing path with
  | step spec ih =>
      rw [preorderAt_eq, List.pairwise_cons]
      refine ⟨?_, pairwise_preorderFrom ih path 0⟩
      intro placed hplaced
      obtain ⟨i, -, below, -, -, rfl⟩ := exists_of_mem_preorderFrom hplaced
      exact List.nil_lt_cons _ _

/-- What comes before a node in preorder is what has a smaller position. -/
theorem mem_before_iff {spec : Spec} {before after : List Placed} {node placed : Placed}
    (hsplit : spec.preorderAt path = before ++ node :: after)
    (hplaced : placed ∈ spec.preorderAt path) :
    placed.position ∈ before.map (·.position) ↔ placed.position < node.position := by
  have hordered := spec.pairwise_preorderAt path
  rw [hsplit, List.pairwise_append, List.pairwise_cons] at hordered
  obtain ⟨-, ⟨hafter, -⟩, hbefore⟩ := hordered
  constructor
  · intro h
    obtain ⟨earlier, hearlier, heq⟩ := List.mem_map.1 h
    rw [← heq]
    exact hbefore earlier hearlier node List.mem_cons_self
  · intro hlt
    rw [hsplit, List.mem_append, List.mem_cons] at hplaced
    rcases hplaced with h | rfl | h
    · exact List.mem_map_of_mem h
    · exact absurd hlt (List.lt_irrefl _)
    · exact absurd (List.lt_trans hlt (hafter placed h)) (List.lt_irrefl _)

/-- What comes before a node in preorder and does not lie above it is to the left of it. -/
theorem mem_finished_iff {spec : Spec} {before after : List Placed} {node placed : Placed}
    (hsplit : spec.preorderAt path = before ++ node :: after)
    (hplaced : placed ∈ spec.preorderAt path) :
    placed.position ∈
        (before.filter fun placed => ¬ placed.position <+: node.position).map (·.position) ↔
      placed.position.LeftOf node.position := by
  rw [Position.LeftOf, ← mem_before_iff hsplit hplaced]
  simp only [List.mem_map, List.mem_filter, decide_eq_true_eq]
  constructor
  · rintro ⟨earlier, ⟨hearlier, habove⟩, heq⟩
    exact ⟨⟨earlier, hearlier, heq⟩, heq ▸ habove⟩
  · rintro ⟨⟨earlier, hearlier, heq⟩, habove⟩
    exact ⟨earlier, ⟨hearlier, heq.symm ▸ habove⟩, heq⟩

end Spec

end BehaviorTree
