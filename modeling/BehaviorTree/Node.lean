import BehaviorTree.Category
import BehaviorTree.Kwargs

/-! # Compiled nodes

A compiled tree is made of composites, loops and leaves. Its only memory is the cursor of every
composite that takes its children in turns. -/

namespace BehaviorTree

/-- How a composite uses its children. `alternate` takes them in turns; its cursor is the index of
the child whose turn is next. -/
inductive Policy where
  | selector
  | sequence
  | parallel
  | alternate (cursor : Nat)
  deriving DecidableEq

namespace Policy

def kind : Policy → String
  | .selector => "Selector"
  | .sequence => "Sequence"
  | .parallel => "Parallel"
  | .alternate _ => "Alternate"

/-- The policy that a kind names, with its cursor at the first child. -/
def ofKind? (kind : String) : Option Policy :=
  match kind with
  | "Selector" => some .selector
  | "Sequence" => some .sequence
  | "Parallel" => some .parallel
  | "Alternate" => some (.alternate 0)
  | _ => none

/-- The policy with its cursor at the first child. -/
def fresh : Policy → Policy
  | .alternate _ => .alternate 0
  | policy => policy

theorem ofKind?_kind (policy : Policy) : ofKind? policy.kind = some policy.fresh := by
  cases policy <;> rfl

/-- A kind names the policy of this kind whose cursor is at the first child, and no other one. -/
theorem ofKind?_eq_some_iff {kind : String} {policy : Policy} :
    ofKind? kind = some policy ↔ policy.kind = kind ∧ policy.fresh = policy := by
  constructor
  · intro h
    unfold ofKind? at h
    split at h <;> cases h <;> exact ⟨rfl, rfl⟩
  · rintro ⟨rfl, hfresh⟩
    rw [ofKind?_kind, hfresh]

end Policy

/-- What a leaf is for: to probe the agent or to act. -/
inductive Role where
  | condition
  | action
  deriving DecidableEq

def Role.category : Role → Category
  | .condition => .condition
  | .action => .action

/-- A leaf: the capability it is bound to, the arguments it passes and its place in the tree. -/
structure Leaf where
  capability : String
  kwargs : Kwargs
  path : String
  deriving DecidableEq

/-- A compiled node. -/
inductive Node where
  | composite (policy : Policy) (children : List Node)
  | loop (count : UInt32) (child : Node)
  | leaf (role : Role) (bound : Leaf)

namespace Node

instance : Inhabited Node := ⟨.composite .sequence []⟩

def category : Node → Category
  | .composite _ _ => .composite
  | .loop _ _ => .decorator
  | .leaf role _ => role.category

/-- The kind of a composite or loop, and the capability of a leaf. -/
def kind : Node → String
  | .composite policy _ => policy.kind
  | .loop _ _ => "Loop"
  | .leaf _ bound => bound.capability

def children : Node → List Node
  | .composite _ children => children
  | .loop _ child => [child]
  | .leaf _ _ => []

mutual

def size : Node → Nat
  | .composite _ children => sizeAll children + 1
  | .loop _ child => child.size + 1
  | .leaf _ _ => 1

def sizeAll : List Node → Nat
  | [] => 0
  | node :: rest => node.size + sizeAll rest

end

mutual

/-- The number of levels of a tree. -/
def height : Node → Nat
  | .composite _ children => heightAll children + 1
  | .loop _ child => child.height + 1
  | .leaf _ _ => 1

/-- The greatest number of levels among several trees. -/
def heightAll : List Node → Nat
  | [] => 0
  | node :: rest => max node.height (heightAll rest)

end

mutual

/-- The cursors of a tree, in the order in which its nodes are written. -/
def cursors : Node → List Nat
  | .composite (.alternate cursor) children => cursor :: cursorsAll children
  | .composite _ children => cursorsAll children
  | .loop _ child => child.cursors
  | .leaf _ _ => []

def cursorsAll : List Node → List Nat
  | [] => []
  | node :: rest => node.cursors ++ cursorsAll rest

end

mutual

/-- The tree as it was compiled: every cursor is back at the first child. -/
def fresh : Node → Node
  | .composite policy children => .composite policy.fresh (freshAll children)
  | .loop count child => .loop count child.fresh
  | .leaf role bound => .leaf role bound

def freshAll : List Node → List Node
  | [] => []
  | node :: rest => node.fresh :: freshAll rest

end

theorem freshAll_eq_map (nodes : List Node) : freshAll nodes = nodes.map fresh := by
  induction nodes with
  | nil => rfl
  | cons node rest ih => simp [freshAll, ih]

mutual

theorem size_fresh : ∀ node : Node, node.fresh.size = node.size
  | .composite _ children => by simp [fresh, size, sizeAll_fresh children]
  | .loop _ child => by simp [fresh, size, size_fresh child]
  | .leaf _ _ => rfl

theorem sizeAll_fresh : ∀ nodes : List Node, sizeAll (freshAll nodes) = sizeAll nodes
  | [] => rfl
  | node :: rest => by simp [freshAll, sizeAll, size_fresh node, sizeAll_fresh rest]

end

mutual

theorem height_fresh : ∀ node : Node, node.fresh.height = node.height
  | .composite _ children => by simp [fresh, height, heightAll_fresh children]
  | .loop _ child => by simp [fresh, height, height_fresh child]
  | .leaf _ _ => rfl

theorem heightAll_fresh : ∀ nodes : List Node, heightAll (freshAll nodes) = heightAll nodes
  | [] => rfl
  | node :: rest => by simp [freshAll, heightAll, height_fresh node, heightAll_fresh rest]

end

theorem height_pos (node : Node) : 0 < node.height := by
  cases node <;> simp [height]

theorem height_le_heightAll {node : Node} {nodes : List Node} (h : node ∈ nodes) :
    node.height ≤ heightAll nodes := by
  induction nodes with
  | nil => simp at h
  | cons first rest ih =>
      rw [heightAll]
      rcases List.mem_cons.1 h with rfl | h
      · exact Nat.le_max_left _ _
      · exact Nat.le_trans (ih h) (Nat.le_max_right _ _)

end Node

end BehaviorTree
