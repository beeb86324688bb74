import BehaviorTree.Compile

/-! # Positions

A position is the way down from a root, the index of a child at every step. A description has a site
at each of its positions: what the node there says by itself, together with its path. The sites in
the order in which the nodes are written determine the description as far as compilation reads it,
and the paths need not be told: they follow from the kinds and the numbers of children
(`sites_eq_placed`). -/

namespace BehaviorTree

/-- The way down from a root: the index of a child at every step. -/
abbrev Position := List Nat

/-- What a node of a description says by itself, as far as compilation reads it: its children count,
but they are not told. -/
structure Head where
  category : String
  kind : String
  attributes : NameMap String
  arity : Nat

/-- A node of a description by itself, at its path. -/
structure Site extends Head where
  path : String

namespace Spec

mutual

/-- A property that a node has when its children have it holds of every description. -/
theorem child_induction {P : Spec → Prop}
    (step : ∀ spec : Spec, (∀ child ∈ spec.children, P child) → P spec) : ∀ spec, P spec
  | ⟨_, _, _, _, children⟩ => step _ (child_induction_all step children)

theorem child_induction_all {P : Spec → Prop}
    (step : ∀ spec : Spec, (∀ child ∈ spec.children, P child) → P spec) :
    ∀ specs : List Spec, ∀ child ∈ specs, P child
  | [], _, h => absurd h List.not_mem_nil
  | first :: rest, child, h => by
      rcases List.mem_cons.1 h with heq | h
      · rw [heq]
        exact child_induction step first
      · exact child_induction_all step rest child h

end

/-- What a node says by itself. -/
def head (spec : Spec) : Head :=
  ⟨spec.category, spec.kind, spec.attributes, spec.children.length⟩

/-- The site at a position below a node that stands at `path`. -/
def site? (path : String) (spec : Spec) : Position → Option Site
  | [] => some ⟨spec.head, path⟩
  | index :: rest =>
      spec.children[index]?.bind fun child =>
        site? (path ++ "/" ++ toString index ++ ":" ++ child.kind) child rest

mutual

/-- The sites of a description whose root stands at `path`, in the order in which the nodes are
written. -/
def sites (path : String) : Spec → List Site
  | ⟨space, category, kind, attributes, children⟩ =>
      ⟨head ⟨space, category, kind, attributes, children⟩, path⟩ :: sitesFrom path 0 children

/-- The sites of the children of the node at `path` from the one with this index on. -/
def sitesFrom (path : String) (index : Nat) : List Spec → List Site
  | [] => []
  | child :: rest =>
      child.sites (path ++ "/" ++ toString index ++ ":" ++ child.kind) ++
        sitesFrom path (index + 1) rest

end

/-- What the nodes of a description say by themselves, in order. -/
def heads (spec : Spec) : List Head := (spec.sites spec.kind).map (·.toHead)

theorem sites_eq (path : String) (spec : Spec) :
    spec.sites path = ⟨spec.head, path⟩ :: sitesFrom path 0 spec.children := by
  cases spec
  rfl

theorem mem_sitesFrom_iff {path : String} {index : Nat} {specs : List Spec} {site : Site} :
    site ∈ sitesFrom path index specs ↔ ∃ (i : Nat) (child : Spec), specs[i]? = some child ∧
      site ∈ child.sites (path ++ "/" ++ toString (index + i) ++ ":" ++ child.kind) := by
  induction specs generalizing index with
  | nil => simp [sitesFrom]
  | cons first rest ih =>
      rw [sitesFrom, List.mem_append, ih]
      constructor
      · rintro (h | ⟨i, child, hchild, h⟩)
        · exact ⟨0, first, rfl, h⟩
        · exact ⟨i + 1, child, hchild, by rwa [Nat.add_comm i 1, ← Nat.add_assoc]⟩
      · rintro ⟨i, child, hchild, h⟩
        cases i with
        | zero =>
            cases hchild
            exact .inl h
        | succ i => exact .inr ⟨i, child, hchild, by rwa [Nat.add_assoc, Nat.add_comm 1 i]⟩

theorem mem_sites_of_site? {path : String} {spec : Spec} {position : Position} {site : Site}
    (h : spec.site? path position = some site) : site ∈ spec.sites path := by
  induction position generalizing path spec with
  | nil =>
      cases h
      rw [sites_eq]
      exact List.mem_cons_self
  | cons index rest ih =>
      rw [site?, Option.bind_eq_some_iff] at h
      obtain ⟨child, hchild, h⟩ := h
      rw [sites_eq, List.mem_cons, mem_sitesFrom_iff]
      exact .inr ⟨index, child, hchild, by simpa using ih h⟩

theorem exists_site?_of_mem_sites {path : String} {spec : Spec} {site : Site}
    (h : site ∈ spec.sites path) : ∃ position, spec.site? path position = some site := by
  induction spec using child_induction generalizing path with
  | step spec ih =>
      rw [sites_eq, List.mem_cons, mem_sitesFrom_iff] at h
      rcases h with rfl | ⟨i, child, hchild, h⟩
      · exact ⟨[], rfl⟩
      · rw [Nat.zero_add] at h
        obtain ⟨position, hposition⟩ := ih child (List.mem_of_getElem? hchild) h
        exact ⟨i :: position, by rw [site?, hchild]; exact hposition⟩

/-- The sites of a description are what stands at its positions. -/
theorem mem_sites_iff {path : String} {spec : Spec} {site : Site} :
    site ∈ spec.sites path ↔ ∃ position, spec.site? path position = some site :=
  ⟨exists_site?_of_mem_sites, fun ⟨_, h⟩ => mem_sites_of_site? h⟩

end Spec

/-! ## Paths from heads

A reader who is told only the heads in order can keep a list of open places, each the path of a
parent and the index of a child that is still to come: a head takes the first place, and opens one
for each of its own children in front of the others. -/

namespace Head

/-- The sites that heads in order have when `places` are open. -/
def placed : List (String × Nat) → List Head → List Site
  | (parent, index) :: places, head :: rest =>
      ⟨head, parent ++ "/" ++ toString index ++ ":" ++ head.kind⟩ ::
        placed ((List.range' 0 head.arity).map
          (parent ++ "/" ++ toString index ++ ":" ++ head.kind, ·) ++ places) rest
  | _, _ => []

/-- The sites that the heads of a whole description have. -/
def placedAtRoot : List Head → List Site
  | [] => []
  | head :: rest =>
      ⟨head, head.kind⟩ :: placed ((List.range' 0 head.arity).map (head.kind, ·)) rest

/-- The sites of the first heads do not depend on those that come later. -/
theorem placed_take (places : List (String × Nat)) (heads : List Head) (n : Nat) :
    placed places (heads.take n) = (placed places heads).take n := by
  induction heads generalizing places n with
  | nil => cases places <;> simp [placed]
  | cons head rest ih =>
      cases n with
      | zero => cases places <;> simp [placed]
      | succ n =>
          cases places with
          | nil => simp [placed]
          | cons place places =>
              rw [List.take_succ_cons, placed, placed, List.take_succ_cons, ih]

theorem placedAtRoot_take (heads : List Head) (n : Nat) :
    placedAtRoot (heads.take n) = (placedAtRoot heads).take n := by
  cases heads with
  | nil => simp [placedAtRoot]
  | cons head rest =>
      cases n with
      | zero => rfl
      | succ n => rw [List.take_succ_cons, placedAtRoot, placedAtRoot, List.take_succ_cons,
          placed_take]

end Head

namespace Spec

open Head

mutual

theorem placed_sites : ∀ (spec : Spec) (parent : String) (index : Nat)
    (places : List (String × Nat)) (rest : List Head),
    placed ((parent, index) :: places)
        ((spec.sites (parent ++ "/" ++ toString index ++ ":" ++ spec.kind)).map (·.toHead) ++
          rest) =
      spec.sites (parent ++ "/" ++ toString index ++ ":" ++ spec.kind) ++ placed places rest
  | ⟨space, category, kind, attributes, children⟩, parent, index, places, rest => by
      rw [sites, List.map_cons, List.cons_append, placed, List.cons_append, head]
      exact congrArg _ (placed_sitesFrom children _ 0 places rest)

theorem placed_sitesFrom : ∀ (specs : List Spec) (path : String) (index : Nat)
    (places : List (String × Nat)) (rest : List Head),
    placed ((List.range' index specs.length).map (path, ·) ++ places)
        ((sitesFrom path index specs).map (·.toHead) ++ rest) =
      sitesFrom path index specs ++ placed places rest
  | [], _, _, _, _ => rfl
  | first :: others, path, index, places, rest => by
      rw [sitesFrom, List.map_append, List.append_assoc, List.append_assoc, List.length_cons,
        List.range'_succ, List.map_cons, List.cons_append, placed_sites first path index,
        placed_sitesFrom others path (index + 1) places rest]

end

/-- The sites of a description follow from its heads alone. -/
theorem sites_eq_placed (spec : Spec) : spec.sites spec.kind = placedAtRoot spec.heads := by
  have h := placed_sitesFrom spec.children spec.kind 0 [] []
  rw [List.append_nil, List.append_nil] at h
  rw [heads, sites_eq, List.map_cons, placedAtRoot]
  simp only [head] at h ⊢
  rw [h]
  simp [placed]

/-- Two descriptions whose first heads agree have the same first sites. -/
theorem sites_take_eq {a b : Spec} {n : Nat} (h : a.heads.take n = b.heads.take n) :
    (a.sites a.kind).take n = (b.sites b.kind).take n := by
  calc (a.sites a.kind).take n
      = placedAtRoot (a.heads.take n) := by rw [sites_eq_placed, placedAtRoot_take]
    _ = placedAtRoot (b.heads.take n) := by rw [h]
    _ = (b.sites b.kind).take n := by rw [sites_eq_placed, placedAtRoot_take]

end Spec

/-! ## Nodes of a tree -/

namespace Node

theorem height_lt_of_mem_children {node child : Node} (h : child ∈ node.children) :
    child.height < node.height := by
  cases node with
  | composite policy children =>
      have hle : child.height ≤ heightAll children := height_le_heightAll h
      rw [height]
      omega
  | loop count only =>
      rw [children, List.mem_singleton] at h
      rw [h, height]
      omega
  | leaf role bound => exact absurd h List.not_mem_nil

/-- What passes from the children of a node to the node holds of every node. -/
theorem child_induction {P : Node → Prop}
    (step : ∀ node : Node, (∀ child ∈ node.children, P child) → P node) (node : Node) : P node := by
  induction h : node.height using Nat.strongRecOn generalizing node with
  | ind height ih =>
      refine step node fun child hchild => ?_
      exact ih child.height (h ▸ height_lt_of_mem_children hchild) child rfl

theorem children_fresh (node : Node) : node.fresh.children = node.children.map fresh := by
  cases node with
  | composite policy nodes => exact freshAll_eq_map nodes
  | loop count child => rfl
  | leaf role bound => rfl

/-- The node at a position of a tree. -/
def at? (node : Node) : Position → Option Node
  | [] => some node
  | index :: rest => node.children[index]?.bind fun child => child.at? rest

@[simp] theorem at?_cons (node : Node) (index : Nat) (rest : Position) :
    node.at? (index :: rest) = node.children[index]?.bind fun child => child.at? rest := rfl

/-- What stands below a child stands below the node, one step further down. -/
theorem exists_at?_of_mem_children {node child below : Node} (hchild : child ∈ node.children)
    {position : Position} (h : child.at? position = some below) :
    ∃ index, node.at? (index :: position) = some below := by
  obtain ⟨index, hindex⟩ := List.mem_iff_getElem?.1 hchild
  refine ⟨index, ?_⟩
  rw [at?_cons, hindex]
  exact h

theorem at?_append (node : Node) (first second : Position) :
    node.at? (first ++ second) = (node.at? first).bind fun below => below.at? second := by
  induction first generalizing node with
  | nil => rfl
  | cons index rest ih =>
      rw [List.cons_append, at?_cons, at?_cons]
      cases node.children[index]? with
      | none => rfl
      | some child => exact ih child

theorem at?_fresh (node : Node) (position : Position) :
    node.fresh.at? position = (node.at? position).map fresh := by
  induction position generalizing node with
  | nil => rfl
  | cons index rest ih =>
      rw [at?_cons, at?_cons, children_fresh, List.getElem?_map]
      cases node.children[index]? with
      | none => rfl
      | some child => exact ih child

theorem leaf_at?_of_fresh_eq {node compiled : Node} (h : node.fresh = compiled)
    {position : Position} {role : Role} {leaf : Leaf}
    (hleaf : node.at? position = some (.leaf role leaf)) :
    compiled.at? position = some (.leaf role leaf) := by
  rw [← h, at?_fresh, hleaf]
  rfl

end Node

end BehaviorTree
