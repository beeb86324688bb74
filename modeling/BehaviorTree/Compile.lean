import BehaviorTree.Arguments
import BehaviorTree.Node
import BehaviorTree.Spec

/-! # Compilation

Compiling a description goes through its nodes in the order in which they are written. What a node
itself becomes, its `Plan`, is decided before its children are looked at, from its own texts and the
number of its children; the children come next, and then the node is complete. So the error is that
of the first node that has no plan. Along the way a compilation records every node that is complete,
which a failure does not take back. -/

namespace BehaviorTree

/-- What a node becomes, apart from its children. -/
inductive Plan where
  | composite (policy : Policy)
  | loop (count : UInt32)
  | leaf (role : Role) (bound : Leaf)
  deriving DecidableEq

namespace Plan

def category : Plan → Category
  | .composite _ => .composite
  | .loop _ => .decorator
  | .leaf role _ => role.category

/-- The planned node over compiled children. A loop has one child; over any other number it would
repeat them in sequence. -/
def build : Plan → List Node → Node
  | .composite policy, nodes => .composite policy nodes
  | .loop count, [node] => .loop count node
  | .loop count, nodes => .loop count (.composite .sequence nodes)
  | .leaf role bound, _ => .leaf role bound

end Plan

/-- The path of a child: the path of its parent, its index among the children, and its kind. -/
def childPath (path : String) (index : Nat) (kind : String) : String :=
  path ++ "/" ++ toString index ++ ":" ++ kind

namespace Spec

/-- Refuses a node with a wrong number of children. -/
def checkArity (spec : Spec) (path : String) (expected : Arity) : Except CompileError Unit :=
  if expected.admits spec.children.length then .ok ()
  else .error (.wrongArity spec.kind path expected spec.children.length)

/-- The count of a loop, read from its attribute. -/
def loopCount (config : Config) (path : String) (spec : Spec) : Except CompileError UInt32 :=
  match spec.attributes.get? config.countAttribute with
  | none => .error (.missingAttribute config.countAttribute path)
  | some text => match Text.readInteger .uint32 (Text.trim text) with
    | .ok n => .ok (UInt32.ofNat n.toNat)
    | .error fault => .error (.invalidAttribute config.countAttribute text (.badCount fault) path)

/-- What a leaf becomes: it has no children, and its attributes become its arguments. -/
def planLeaf (config : Config) (path : String) (role : Role) (spec : Spec) :
    Except CompileError Plan := do
  spec.checkArity path (.exactly 0)
  let kwargs ← arguments config path spec.attributes
  return .leaf role ⟨config.capabilityName spec.kind, kwargs, path⟩

/-- What a node at `path` becomes, or why it is refused. -/
def plan (config : Config) (path : String) (spec : Spec) : Except CompileError Plan :=
  match Category.ofSegment? spec.category with
  | none => .error (.unknownCategory spec.category path)
  | some .composite => match Policy.ofKind? spec.kind with
    | none => .error (.unknownKind .composite spec.kind path)
    | some policy => do
        spec.checkArity path (.atLeast 1)
        return .composite policy
  | some .decorator =>
      if spec.kind = "Loop" then do
        spec.checkArity path (.exactly 1)
        return .loop (← spec.loopCount config path)
      else .error (.unknownKind .decorator spec.kind path)
  | some .condition => spec.planLeaf config path .condition
  | some .action => spec.planLeaf config path .action

end Spec

structure Compiled where
  path : String
  category : Category
  deriving DecidableEq

/-- A compilation under way: the nodes that are complete, in order, and the result or the error. -/
structure Compilation (α : Type) where
  completed : List Compiled
  result : Except CompileError α

namespace Compilation

variable {α β : Type}

/-- A result that completes no node. -/
def ofResult (result : Except CompileError α) : Compilation α := ⟨[], result⟩

/-- Goes on with the result, unless there is none. -/
def andThen (first : Compilation α) (next : α → Compilation β) : Compilation β :=
  match first.result with
  | .error e => ⟨first.completed, .error e⟩
  | .ok a => ⟨first.completed ++ (next a).completed, (next a).result⟩

instance : Monad Compilation where
  pure a := ofResult (.ok a)
  bind := andThen

/-- Records that the node at `path` is complete. -/
def complete (path : String) (category : Category) : Compilation Unit :=
  ⟨[⟨path, category⟩], .ok ()⟩

end Compilation

namespace Spec

mutual

def compileAt (config : Config) (path : String) : Spec → Compilation Node
  | ⟨space, category, kind, attributes, children⟩ => do
      let plan ← .ofResult (plan config path ⟨space, category, kind, attributes, children⟩)
      let nodes ← compileChildren config path 0 children
      .complete path plan.category
      return plan.build nodes

/-- Compiles the children of the node at `path` from the one with this index on. -/
def compileChildren (config : Config) (path : String) (index : Nat) :
    List Spec → Compilation (List Node)
  | [] => return []
  | child :: rest => do
      let node ← child.compileAt config (childPath path index child.kind)
      let nodes ← compileChildren config path (index + 1) rest
      return node :: nodes

end

/-- Compiles a description. The path of the root is its kind. -/
def compilation (config : Config) (spec : Spec) : Compilation Node :=
  spec.compileAt config spec.kind

/-- The compiled tree of a description, or the first error. -/
def compile (config : Config) (spec : Spec) : Except CompileError Node :=
  (spec.compilation config).result

end Spec

end BehaviorTree
