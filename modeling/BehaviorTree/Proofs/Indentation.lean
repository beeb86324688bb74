import BehaviorTree.Proofs.Lines
import BehaviorTree.Proofs.Parsing
import BehaviorTree.Proofs.Position

/-! # Outlines show trees

A line of an outline begins with spaces and goes on with a character that is none, so it tells how
deep its node stands and what the node shows of itself (`Node.face`), whatever the names in the tree
look like. The depths of the nodes in order give the shape of the tree: below a node stands what is
deeper, up to the next node that is not (`Node.looksLike_of_rows_append_eq`). So trees with the same
outline look the same at every position. -/

namespace BehaviorTree

/-! ## Lines of a text -/

/-- A text of lines, each ended by a line feed, has only these lines. -/
theorem eq_of_join_lines_eq {lines lines' : List String} (h : ∀ line ∈ lines, OneLine line)
    (h' : ∀ line ∈ lines', OneLine line)
    (heq : String.join (lines.map (· ++ "\n")) = String.join (lines'.map (· ++ "\n"))) :
    lines = lines' := by
  have hjoin : ∀ (line : String) (rest : List String),
      (String.join ((line :: rest).map (· ++ "\n"))).toList =
        line.toList ++ '\n' :: (String.join (rest.map (· ++ "\n"))).toList := by
    intro line rest
    simp
  have hends : ∀ line : String, OneLine line → ∀ c ∈ line.toList, (c != '\n') = true := by
    rintro line hline c hc
    rw [bne_iff_ne]
    rintro rfl
    exact hline hc
  have hfeed : ∀ rest : List Char, ∀ c ∈ ('\n' :: rest).head?, (c != '\n') = false := by
    intro rest c hc
    rw [← Option.some.inj hc]
    rfl
  induction lines generalizing lines' with
  | nil =>
      cases lines' with
      | nil => rfl
      | cons line' rest' =>
          have hnil := congrArg String.toList heq
          rw [hjoin] at hnil
          simp at hnil
  | cons line rest ih =>
      cases lines' with
      | nil =>
          have hnil := congrArg String.toList heq
          rw [hjoin] at hnil
          simp at hnil
      | cons line' rest' =>
          rw [List.forall_mem_cons] at h h'
          have hboth := congrArg String.toList heq
          rw [hjoin, hjoin] at hboth
          obtain ⟨hline, hrest⟩ := Json.eq_of_append_eq hboth (hends line h.1) (hends line' h'.1)
            (hfeed _) (hfeed _)
          rw [String.toList_inj.1 hline,
            ih h.2 h'.2 (String.toList_inj.1 (List.cons.inj hrest).2)]

/-! ## What a line shows -/

/-- What a node shows of itself in an outline: its category, with the kind of a composite, the count
of a loop, or what stands behind the mark of a leaf. -/
inductive Face where
  | composite (kind : String)
  | loop (count : UInt32)
  | leaf (role : Role) (text : String)
  deriving DecidableEq

namespace Node

/-- What a node shows of itself. -/
def face : Node → Face
  | .composite policy _ => .composite policy.kind
  | .loop count _ => .loop count
  | .leaf role bound => .leaf role (bound.capability ++ bound.kwargs.outline)

/-- The first character of a label. -/
def mark : Node → Char
  | .composite .selector _ => 'S'
  | .composite .sequence _ => 'S'
  | .composite .parallel _ => 'P'
  | .composite (.alternate _) _ => 'A'
  | .loop _ _ => 'L'
  | .leaf .condition _ => '?'
  | .leaf .action _ => '!'

theorem exists_label_eq (node : Node) : ∃ rest, node.label.toList = node.mark :: rest := by
  cases node with
  | composite policy children => cases policy <;> simp [label, Policy.kind, mark]
  | loop count child => simp [label, mark]
  | leaf role bound => cases role <;> simp [label, mark]

theorem mark_ne_space (node : Node) : node.mark ≠ ' ' := by
  cases node with
  | composite policy children => cases policy <;> simp [mark]
  | loop count child => simp [mark]
  | leaf role bound => cases role <;> simp [mark]

theorem mark_eq_of_label_eq {a b : Node} (h : a.label = b.label) : a.mark = b.mark := by
  obtain ⟨rest, ha⟩ := a.exists_label_eq
  obtain ⟨rest', hb⟩ := b.exists_label_eq
  rw [h, hb] at ha
  exact (List.cons.inj ha).1.symm

theorem count_eq_of_label_eq {count count' : UInt32} {child child' : Node}
    (h : (loop count child).label = (loop count' child').label) : count = count' := by
  have htext : toString count.toNat = toString count'.toNat := by
    simpa [label] using h
  exact UInt32.toNat_inj.1 (Text.eq_of_toString_eq htext)

/-- The label of a node tells what the node shows, and nothing else. -/
theorem label_eq_iff {a b : Node} : a.label = b.label ↔ a.face = b.face := by
  constructor
  · intro h
    have hmark := mark_eq_of_label_eq h
    cases a with
    | composite policy children =>
        cases b with
        | composite policy' children' => exact congrArg Face.composite h
        | loop count' child' => cases policy <;> cases hmark
        | leaf role' bound' => cases policy <;> cases role' <;> cases hmark
    | loop count child =>
        cases b with
        | composite policy' children' => cases policy' <;> cases hmark
        | loop count' child' => exact congrArg Face.loop (count_eq_of_label_eq h)
        | leaf role' bound' => cases role' <;> cases hmark
    | leaf role bound =>
        cases b with
        | composite policy' children' => cases policy' <;> cases role <;> cases hmark
        | loop count' child' => cases role <;> cases hmark
        | leaf role' bound' =>
            cases role <;> cases role'
            · simpa [label, face, String.append_assoc] using h
            · cases hmark
            · cases hmark
            · simpa [label, face, String.append_assoc] using h
  · intro h
    cases a <;> cases b <;>
      simp only [face, reduceCtorEq, Face.composite.injEq, Face.loop.injEq, Face.leaf.injEq] at h
    · exact h
    · rw [label, label, h]
    · obtain ⟨rfl, htext⟩ := h
      rename_i role _ _
      cases role <;> simp only [label, String.append_assoc, htext]

/-- A line tells how deep its node stands and what it shows. -/
theorem line_eq_iff {a b : Node} {depth depth' : Nat} :
    indentation depth ++ a.label = indentation depth' ++ b.label ↔
      depth = depth' ∧ a.face = b.face := by
  have hspaces : ∀ depth, ∀ c ∈ List.replicate (2 * depth) ' ', (c == ' ') = true := by
    intro depth c hc
    rw [List.eq_of_mem_replicate hc]
    rfl
  have hstarts : ∀ node : Node, ∀ c ∈ node.label.toList.head?, (c == ' ') = false := by
    intro node c hc
    obtain ⟨rest, hlabel⟩ := node.exists_label_eq
    rw [hlabel] at hc
    rw [← Option.some.inj hc, beq_eq_false_iff_ne]
    exact node.mark_ne_space
  rw [← label_eq_iff]
  constructor
  · intro h
    have htext := congrArg String.toList h
    rw [String.toList_append, String.toList_append, indentation, indentation, String.toList_ofList,
      String.toList_ofList] at htext
    obtain ⟨hdepth, hlabel⟩ := Json.eq_of_append_eq htext (hspaces depth) (hspaces depth')
      (hstarts a) (hstarts b)
    have hlength := congrArg List.length hdepth
    rw [List.length_replicate, List.length_replicate] at hlength
    exact ⟨by omega, String.toList_inj.1 hlabel⟩
  · rintro ⟨rfl, hlabel⟩
    rw [hlabel]

/-! ## Nodes and their positions -/

mutual

/-- The nodes of a tree with their positions, in the order in which they are written. -/
def placed : Node → List (Position × Node)
  | .composite policy children => ([], .composite policy children) :: placedFrom 0 children
  | .loop count child =>
      ([], .loop count child) :: child.placed.map fun (position, node) => (0 :: position, node)
  | .leaf role bound => [([], .leaf role bound)]

/-- The nodes of the children from the one with this index on, with their positions. -/
def placedFrom (index : Nat) : List Node → List (Position × Node)
  | [] => []
  | child :: rest =>
      (child.placed.map fun (position, node) => (index :: position, node)) ++
        placedFrom (index + 1) rest

end

theorem placed_eq (node : Node) : node.placed = ([], node) :: placedFrom 0 node.children := by
  cases node with
  | composite policy children => rfl
  | loop count child =>
      rw [placed, children, placedFrom, placedFrom, List.append_nil]
  | leaf role bound => rfl

theorem mem_placedFrom_iff {nodes : List Node} {index : Nat} {position : Position} {node : Node} :
    (position, node) ∈ placedFrom index nodes ↔ ∃ i child below, nodes[i]? = some child ∧
      (below, node) ∈ child.placed ∧ position = (index + i) :: below := by
  induction nodes generalizing index with
  | nil => simp [placedFrom]
  | cons first rest ih =>
      rw [placedFrom, List.mem_append, ih]
      constructor
      · rintro (h | ⟨i, child, below, hchild, hbelow, rfl⟩)
        · obtain ⟨⟨below, _⟩, hbelow, heq⟩ := List.mem_map.1 h
          obtain ⟨rfl, rfl⟩ := Prod.mk.inj heq
          exact ⟨0, first, below, rfl, hbelow, rfl⟩
        · exact ⟨i + 1, child, below, hchild, hbelow, by rw [Nat.add_assoc, Nat.add_comm 1 i]⟩
      · rintro ⟨i, child, below, hchild, hbelow, rfl⟩
        cases i with
        | zero =>
            cases hchild
            exact .inl (List.mem_map.2 ⟨(below, node), hbelow, rfl⟩)
        | succ i =>
            exact .inr ⟨i, child, below, hchild, hbelow, by rw [Nat.add_assoc, Nat.add_comm 1 i]⟩

/-- A node is told with its position. -/
theorem mem_placed_iff {root node : Node} {position : Position} :
    (position, node) ∈ root.placed ↔ root.at? position = some node := by
  induction root using child_induction generalizing position with
  | step root ih =>
      rw [placed_eq, List.mem_cons, mem_placedFrom_iff]
      cases position with
      | nil => simp [at?, eq_comm]
      | cons index rest =>
          rw [at?_cons, Option.bind_eq_some_iff]
          constructor
          · rintro (h | ⟨i, child, below, hchild, hbelow, heq⟩)
            · cases h
            · rw [Nat.zero_add] at heq
              obtain ⟨rfl, rfl⟩ := List.cons.inj heq
              exact ⟨child, hchild, (ih child (List.mem_of_getElem? hchild)).1 hbelow⟩
          · rintro ⟨child, hchild, hnode⟩
            exact .inr ⟨index, child, rest, hchild,
              (ih child (List.mem_of_getElem? hchild)).2 hnode, by rw [Nat.zero_add]⟩

theorem pairwise_placedFrom {nodes : List Node}
    (h : ∀ child ∈ nodes, child.placed.Pairwise fun first second => first.1 < second.1)
    (index : Nat) : (placedFrom index nodes).Pairwise fun first second => first.1 < second.1 := by
  induction nodes generalizing index with
  | nil =>
      rw [placedFrom]
      exact .nil
  | cons child rest ih =>
      rw [List.forall_mem_cons] at h
      rw [placedFrom, List.pairwise_append, List.pairwise_map]
      refine ⟨?_, ih h.2 _, ?_⟩
      · apply h.1.imp
        intro first second hlt
        exact List.cons_lt_cons_iff.2 (.inr ⟨rfl, hlt⟩)
      · rintro first hfirst ⟨position, node⟩ hsecond
        obtain ⟨below, -, rfl⟩ := List.mem_map.1 hfirst
        obtain ⟨i, -, below', -, -, rfl⟩ := mem_placedFrom_iff.1 hsecond
        exact List.cons_lt_cons_iff.2 (.inl (by omega))

/-- The nodes are told in the order of their positions. -/
theorem pairwise_placed (root : Node) :
    root.placed.Pairwise fun first second => first.1 < second.1 := by
  induction root using child_induction with
  | step root ih =>
      rw [placed_eq, List.pairwise_cons]
      refine ⟨?_, pairwise_placedFrom ih 0⟩
      rintro ⟨position, node⟩ h
      obtain ⟨i, child, below, -, -, rfl⟩ := mem_placedFrom_iff.1 h
      exact List.nil_lt_cons _ _

theorem preorder_eq (depth : Nat) (node : Node) :
    node.preorder depth = (depth, node) :: preorderAll (depth + 1) node.children := by
  cases node with
  | composite policy children => rfl
  | loop count child => rw [preorder, children, preorderAll, preorderAll, List.append_nil]
  | leaf role bound => rfl

theorem preorderAll_eq_map_placedFrom {nodes : List Node}
    (h : ∀ child ∈ nodes, ∀ depth, child.preorder depth =
      child.placed.map fun (position, node) => (depth + position.length, node))
    (depth index : Nat) : preorderAll (depth + 1) nodes =
      (placedFrom index nodes).map fun (position, node) => (depth + position.length, node) := by
  induction nodes generalizing index with
  | nil => rfl
  | cons child rest ih =>
      rw [List.forall_mem_cons] at h
      rw [preorderAll, placedFrom, List.map_append, List.map_map, h.1, ih h.2 (index + 1)]
      congr 1
      apply List.map_congr_left
      rintro ⟨position, node⟩ -
      simp only [Function.comp_apply, List.length_cons]
      congr 1
      omega

/-- The depth of a node is the number of steps down to it. -/
theorem preorder_eq_map_placed (root : Node) (depth : Nat) : root.preorder depth =
    root.placed.map fun (position, node) => (depth + position.length, node) := by
  induction root using child_induction generalizing depth with
  | step root ih =>
      rw [preorder_eq, placed_eq, List.map_cons, preorderAll_eq_map_placedFrom ih depth 0]
      rfl

/-- The lines of an outline are those of the nodes, each indented for the steps down to it. -/
theorem outlineLines_eq (root : Node) : root.outlineLines =
    root.placed.map fun (position, node) => indentation position.length ++ node.label := by
  rw [outlineLines, preorder_eq_map_placed, List.map_map]
  apply List.map_congr_left
  rintro ⟨position, node⟩ -
  simp only [Function.comp_apply, Nat.zero_add]

/-! ## Trees that look the same -/

/-- Two trees have nodes at the same positions, and these show the same. -/
def LooksLike (a b : Node) : Prop :=
  ∀ position, (a.at? position).map face = (b.at? position).map face

theorem map_face_at?_cons (node : Node) (index : Nat) (rest : Position) :
    (node.at? (index :: rest)).map face =
      node.children[index]?.bind fun child => (child.at? rest).map face := by
  rw [at?_cons]
  cases node.children[index]? <;> rfl

/-- Several trees look the same one by one if what stands below each index does. -/
theorem forall₂_looksLike_iff {nodes nodes' : List Node} : List.Forall₂ LooksLike nodes nodes' ↔
    ∀ (index : Nat) (rest : Position),
      (nodes[index]?.bind fun child : Node => (child.at? rest).map face) =
        nodes'[index]?.bind fun child : Node => (child.at? rest).map face := by
  constructor
  · intro h index rest
    induction h generalizing index with
    | nil => rfl
    | cons hfirst _ ih =>
        cases index with
        | zero => exact hfirst rest
        | succ index => exact ih index
  · intro h
    -- At the empty position a list that is longer shows one more node.
    induction nodes generalizing nodes' with
    | nil =>
        cases nodes' with
        | nil => exact .nil
        | cons other rest' => cases h 0 []
    | cons node rest ih =>
        cases nodes' with
        | nil => cases h 0 []
        | cons other rest' =>
            exact .cons (fun position => h 0 position)
              (ih fun index position => h (index + 1) position)

/-- Trees look the same if their roots do and their children do one by one. -/
theorem looksLike_iff {a b : Node} :
    a.LooksLike b ↔ a.face = b.face ∧ List.Forall₂ LooksLike a.children b.children := by
  rw [forall₂_looksLike_iff]
  simp only [← map_face_at?_cons]
  constructor
  · intro h
    exact ⟨Option.some.inj (h []), fun index rest => h (index :: rest)⟩
  · rintro ⟨hface, hchildren⟩ position
    cases position with
    | nil => exact congrArg some hface
    | cons index rest => exact hchildren index rest

/-- What the lines of a tree tell: depths and what the nodes show. -/
def rows (depth : Nat) (node : Node) : List (Nat × Face) :=
  (node.preorder depth).map fun (depth, node) => (depth, node.face)

theorem rows_eq (depth : Nat) (node : Node) :
    node.rows depth = (depth, node.face) :: node.children.flatMap (rows (depth + 1)) := by
  have hall : ∀ nodes : List Node, (preorderAll (depth + 1) nodes).map
      (fun (depth, node) => (depth, node.face)) = nodes.flatMap (rows (depth + 1)) := by
    intro nodes
    induction nodes with
    | nil => rfl
    | cons child rest ih => rw [preorderAll, List.map_append, ih, List.flatMap_cons, rows]
  rw [rows, preorder_eq, List.map_cons, hall]

/-- Rows that do not go on below a node on this level. -/
def Outside (depth : Nat) (rows : List (Nat × Face)) : Prop := ∀ row ∈ rows.head?, row.1 ≤ depth

theorem outside_append {depth : Nat} {nodes : List Node} {rest : List (Nat × Face)}
    (h : Outside depth rest) : Outside (depth + 1) (nodes.flatMap (rows (depth + 1)) ++ rest) := by
  intro row hrow
  cases nodes with
  | nil =>
      have hle := h row hrow
      omega
  | cons node nodes =>
      rw [List.flatMap_cons, rows_eq] at hrow
      rw [← Option.some.inj hrow]

theorem forall₂_looksLike_of_rows_append_eq {depth : Nat} {nodes nodes' : List Node}
    {rest rest' : List (Nat × Face)} (hrest : Outside depth rest) (hrest' : Outside depth rest')
    (heach : ∀ node ∈ nodes, ∀ (other : Node) (rest rest' : List (Nat × Face)),
      Outside (depth + 1) rest → Outside (depth + 1) rest' →
      node.rows (depth + 1) ++ rest = other.rows (depth + 1) ++ rest' →
      node.LooksLike other ∧ rest = rest')
    (h : nodes.flatMap (rows (depth + 1)) ++ rest = nodes'.flatMap (rows (depth + 1)) ++ rest') :
    List.Forall₂ LooksLike nodes nodes' ∧ rest = rest' := by
  induction nodes generalizing nodes' with
  | nil =>
      cases nodes' with
      | nil => exact ⟨.nil, h⟩
      | cons other nodes' =>
          rw [List.flatMap_nil, List.nil_append, List.flatMap_cons, rows_eq] at h
          exact absurd (hrest _ (by rw [h]; rfl)) (Nat.not_succ_le_self depth)
  | cons node nodes ih =>
      cases nodes' with
      | nil =>
          rw [List.flatMap_nil, List.nil_append, List.flatMap_cons, rows_eq] at h
          exact absurd (hrest' _ (by rw [← h]; rfl)) (Nat.not_succ_le_self depth)
      | cons other nodes' =>
          rw [List.forall_mem_cons] at heach
          rw [List.flatMap_cons, List.flatMap_cons, List.append_assoc, List.append_assoc] at h
          obtain ⟨hfirst, hlater⟩ :=
            heach.1 other _ _ (outside_append hrest) (outside_append hrest') h
          obtain ⟨hothers, heq⟩ := ih heach.2 hlater
          exact ⟨.cons hfirst hothers, heq⟩

/-- The rows of a tree are cut off from what follows in one way, and tell how the tree looks. -/
theorem looksLike_of_rows_append_eq {a b : Node} {depth : Nat} {rest rest' : List (Nat × Face)}
    (hrest : Outside depth rest) (hrest' : Outside depth rest')
    (h : a.rows depth ++ rest = b.rows depth ++ rest') : a.LooksLike b ∧ rest = rest' := by
  induction a using child_induction generalizing b depth rest rest' with
  | step a ih =>
      rw [rows_eq, rows_eq, List.cons_append, List.cons_append] at h
      obtain ⟨hface, hbelow⟩ := List.cons.inj h
      obtain ⟨hchildren, heq⟩ := forall₂_looksLike_of_rows_append_eq hrest hrest'
        (fun node hnode other rest rest' hrest hrest' h => ih node hnode hrest hrest' h) hbelow
      exact ⟨looksLike_iff.2 ⟨(Prod.mk.inj hface).2, hchildren⟩, heq⟩

theorem rows_eq_of_looksLike {a b : Node} (h : a.LooksLike b) (depth : Nat) :
    a.rows depth = b.rows depth := by
  induction a using child_induction generalizing b depth with
  | step a ih =>
      obtain ⟨hface, hchildren⟩ := looksLike_iff.1 h
      rw [rows_eq, rows_eq, hface]
      congr 1
      generalize a.children = nodes at hchildren ih
      generalize b.children = nodes' at hchildren
      induction hchildren with
      | nil => rfl
      | cons hfirst _ ihrest =>
          rw [List.forall_mem_cons] at ih
          rw [List.flatMap_cons, List.flatMap_cons, ih.1 hfirst, ihrest ih.2]

/-- Outlines have the same lines if the trees look the same, and only then. -/
theorem outlineLines_eq_iff {a b : Node} : a.outlineLines = b.outlineLines ↔ a.LooksLike b := by
  have hrows : a.outlineLines = b.outlineLines ↔ a.rows 0 = b.rows 0 := by
    rw [outlineLines, outlineLines, rows, rows, ← List.forall₂_eq_eq_eq, ← List.forall₂_eq_eq_eq,
      List.forall₂_map_left_iff, List.forall₂_map_left_iff, List.forall₂_map_right_iff,
      List.forall₂_map_right_iff]
    simp only [line_eq_iff, Prod.mk.injEq]
  rw [hrows]
  constructor
  · intro h
    have hnone : Outside 0 [] := by rintro row ⟨⟩
    exact (looksLike_of_rows_append_eq hnone hnone (congrArg (· ++ []) h)).1
  · intro h
    exact rows_eq_of_looksLike h 0

end Node

/-- The outline of a tree whose names have no line feed shows the tree. It has a line for each node,
in the order of their positions, indented by two spaces for each step down to the node, whatever
characters the texts among the arguments have. And the outlines of two such trees are equal exactly
if the trees have nodes at the same positions which show the same: the same category, the same kind
of composite or count of a loop, and the same text behind the mark of a leaf. -/
theorem outline_shows_tree {root : Node} (h : ∀ name ∈ root.names, OneLine name) :
    (∃ lines : List String, root.outline = String.join (lines.map (· ++ "\n")) ∧
      (∀ line ∈ lines, OneLine line) ∧ lines.length = root.size ∧
      lines = root.placed.map fun (position, node) =>
        String.ofList (List.replicate (2 * position.length) ' ') ++ node.label) ∧
    (∀ position node, (position, node) ∈ root.placed ↔ root.at? position = some node) ∧
    (root.placed.Pairwise fun first second => first.1 < second.1) ∧
    ∀ other : Node, (∀ name ∈ other.names, OneLine name) → (root.outline = other.outline ↔
      ∀ position, (root.at? position).map Node.face = (other.at? position).map Node.face) := by
  refine ⟨⟨root.outlineLines, rfl, Node.oneLine_of_mem_outlineLines h, root.length_outlineLines,
    root.outlineLines_eq⟩, fun _ _ => Node.mem_placed_iff, root.pairwise_placed, ?_⟩
  intro other hother
  have hlines : root.outline = other.outline ↔ root.outlineLines = other.outlineLines := by
    constructor
    · exact eq_of_join_lines_eq (Node.oneLine_of_mem_outlineLines h)
        (Node.oneLine_of_mem_outlineLines hother)
    · intro heq
      rw [Node.outline, Node.outline, heq]
  exact hlines.trans Node.outlineLines_eq_iff

/-- An action that says two lines, the second of which looks like the line of another action, is not
shown like two actions. -/
theorem outline_shows_tree_two_lines :
    ∃ root other : Node, (∀ name ∈ root.names, OneLine name) ∧
      (∀ name ∈ other.names, OneLine name) ∧ root.outline ≠ other.outline ∧
      ∃ lines : List String, root.outline = String.join (lines.map (· ++ "\n")) ∧
        (∀ line ∈ lines, OneLine line) ∧ lines.length = 2 := by
  let say (text : String) : Node :=
    .leaf .action ⟨"say", .ofList [("text", .str text)], "Sequence/0:Say"⟩
  let shoot : Node := .leaf .action ⟨"shoot", .empty, "Sequence/1:Shoot"⟩
  let root : Node := .composite .sequence [say "one\n  ! shoot"]
  let other : Node := .composite .sequence [say "one", shoot]
  have hroot : ∀ name ∈ root.names, OneLine name := by decide +kernel
  have hother : ∀ name ∈ other.names, OneLine name := by decide +kernel
  obtain ⟨⟨lines, houtline, hone, hlength, -⟩, -, -, hequal⟩ := outline_shows_tree hroot
  refine ⟨root, other, hroot, hother, ?_, lines, houtline, hone, hlength⟩
  intro heq
  -- Only one of the trees has a second child.
  exact nomatch (hequal other hother).1 heq [1]

end BehaviorTree
