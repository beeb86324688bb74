import BehaviorTree.Category
import BehaviorTree.NameMap

/-! # Node descriptions

A `Spec` describes a node before it is compiled: the three segments of its qualifier, its attributes
as texts, and its children. The category is a text too, so that one that does not exist is reported
by the compiler, with the place of the node. -/

namespace BehaviorTree

/-- A node as it is described. `space` is the first segment of the qualifier. -/
structure Spec where
  space : String
  category : String
  kind : String
  attributes : NameMap String
  children : List Spec

namespace Spec

instance : Inhabited Spec := ⟨⟨"", "", "", .empty, []⟩⟩

/-- A node without attributes and children, in the usual namespace. -/
def ofKind (category kind : String) : Spec := ⟨"BT", category, kind, .empty, []⟩

def composite (kind : String) : Spec := ofKind Category.composite.segment kind

def decorator (kind : String) : Spec := ofKind Category.decorator.segment kind

def condition (kind : String) : Spec := ofKind Category.condition.segment kind

def action (kind : String) : Spec := ofKind Category.action.segment kind

def withAttribute (spec : Spec) (name value : String) : Spec :=
  { spec with attributes := spec.attributes.insert name value }

/-- Sets an attribute together with the type tag that belongs to it by default. -/
def withTypedAttribute (spec : Spec) (name value tag : String) : Spec :=
  (spec.withAttribute name value).withAttribute ("_" ++ name ++ "Type") tag

def withChildren (spec : Spec) (children : List Spec) : Spec :=
  { spec with children := spec.children ++ children }

/-- Adds one child after those that are there. -/
def withChild (spec : Spec) (child : Spec) : Spec := spec.withChildren [child]

/-- A loop that runs its child up to `count` times. -/
def loop (count : UInt32) (child : Spec) : Spec :=
  ((decorator "Loop").withAttribute "Count" (toString count.toNat)).withChild child

/-- The qualifier of a node: its three segments, joined by dots. -/
def qualifier (spec : Spec) : String := spec.space ++ "." ++ spec.category ++ "." ++ spec.kind

mutual

def size : Spec → Nat
  | ⟨_, _, _, _, children⟩ => sizeAll children + 1

def sizeAll : List Spec → Nat
  | [] => 0
  | spec :: rest => spec.size + sizeAll rest

end

mutual

/-- The nodes of a description in the order in which they are written, with their depths. -/
def preorder (depth : Nat) : Spec → List (Nat × Spec)
  | ⟨space, category, kind, attributes, children⟩ =>
      (depth, ⟨space, category, kind, attributes, children⟩) :: preorderAll (depth + 1) children

/-- The nodes of several descriptions in order, with their depths. -/
def preorderAll (depth : Nat) : List Spec → List (Nat × Spec)
  | [] => []
  | spec :: rest => spec.preorder depth ++ preorderAll depth rest

end

end Spec

end BehaviorTree
