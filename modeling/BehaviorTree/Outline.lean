import BehaviorTree.Node

/-! # Outlines

The outline of a tree has one line for each node, in the order in which the nodes are written, with
two spaces of indentation for each level above it. Loops show their count and leaves their
arguments; a question mark stands before a condition and an exclamation mark before an action. -/

namespace BehaviorTree

/-- The arguments of a leaf in brackets; nothing when there are none. -/
def Kwargs.outline (kwargs : Kwargs) : String :=
  if kwargs.isEmpty then ""
  else
    let parts := kwargs.entries.map fun (name, value) => name ++ "=" ++ value.display
    "(" ++ ", ".intercalate parts ++ ")"

namespace Node

/-- The text of the line of a node, without its indentation. -/
def label : Node → String
  | .composite policy _ => policy.kind
  | .loop count _ => "Loop x" ++ toString count.toNat
  | .leaf .condition bound => "? " ++ bound.capability ++ bound.kwargs.outline
  | .leaf .action bound => "! " ++ bound.capability ++ bound.kwargs.outline

/-- The indentation of a node that stands this many levels below the root. -/
def indentation (depth : Nat) : String := String.ofList (List.replicate (2 * depth) ' ')

mutual

/-- The nodes of a tree in the order in which they are written, with their depths. -/
def preorder (depth : Nat) : Node → List (Nat × Node)
  | .composite policy children =>
      (depth, .composite policy children) :: preorderAll (depth + 1) children
  | .loop count child => (depth, .loop count child) :: child.preorder (depth + 1)
  | .leaf role bound => [(depth, .leaf role bound)]

def preorderAll (depth : Nat) : List Node → List (Nat × Node)
  | [] => []
  | node :: rest => node.preorder depth ++ preorderAll depth rest

end

def outlineLines (node : Node) : List String :=
  (node.preorder 0).map fun (depth, node) => indentation depth ++ node.label

/-- The outline of a tree; every line is ended by a line feed. -/
def outline (node : Node) : String :=
  String.join (node.outlineLines.map (· ++ "\n"))

mutual

theorem length_preorder : ∀ (node : Node) (depth : Nat), (node.preorder depth).length = node.size
  | .composite _ children, depth => by
      simp [preorder, size, length_preorderAll children]
  | .loop _ child, depth => by simp [preorder, size, length_preorder child]
  | .leaf _ _, _ => rfl

theorem length_preorderAll : ∀ (nodes : List Node) (depth : Nat),
    (preorderAll depth nodes).length = sizeAll nodes
  | [], _ => rfl
  | node :: rest, depth => by
      simp [preorderAll, sizeAll, length_preorder node, length_preorderAll rest]

end

/-- The outline has as many lines as the tree has nodes. -/
theorem length_outlineLines (node : Node) : node.outlineLines.length = node.size := by
  simp [outlineLines, length_preorder]

end Node

end BehaviorTree
