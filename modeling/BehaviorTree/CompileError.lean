import BehaviorTree.Category
import BehaviorTree.Value

/-! # Errors of compilation

A description is refused at the first node that cannot be compiled. The error names the place of the
node, as a path from the root. -/

namespace BehaviorTree

inductive Arity where
  | atLeast (n : Nat)
  | exactly (n : Nat)
  deriving DecidableEq

namespace Arity

def admits : Arity → Nat → Bool
  | .atLeast n, found => n ≤ found
  | .exactly n, found => found == n

def display : Arity → String
  | .atLeast n => "at least " ++ toString n
  | .exactly n => "exactly " ++ toString n

end Arity

/-- What is wrong with the value of an attribute. -/
inductive AttributeFault where
  | misread (m : Value.Misread)
  | badCount (fault : Text.IntegerFault)
  | keywordTaken
  deriving DecidableEq

def AttributeFault.message : AttributeFault → String
  | .misread m => m.message
  | .badCount fault => "expected a non-negative integer (" ++ fault.message ++ ")"
  | .keywordTaken => "keyword already bound by another attribute differing only in case"

/-- Why a node is not compiled; `path` is the place of the node. -/
inductive CompileError where
  | unknownCategory (category path : String)
  | unknownKind (category : Category) (kind path : String)
  | wrongArity (kind path : String) (expected : Arity) (found : Nat)
  | missingTypeTag (name tag path : String)
  | unknownType (name tag path : String)
  | missingAttribute (name path : String)
  | invalidAttribute (name value : String) (fault : AttributeFault) (path : String)
  deriving DecidableEq

namespace CompileError

def path : CompileError → String
  | .unknownCategory _ path => path
  | .unknownKind _ _ path => path
  | .wrongArity _ path _ _ => path
  | .missingTypeTag _ _ path => path
  | .unknownType _ _ path => path
  | .missingAttribute _ path => path
  | .invalidAttribute _ _ _ path => path

def message : CompileError → String
  | .unknownCategory category path => "unknown node category `" ++ category ++ "` at " ++ path
  | .unknownKind category kind path =>
      "unknown " ++ category.display ++ " kind `" ++ kind ++ "` at " ++ path
  | .wrongArity kind path expected found =>
      kind ++ " at " ++ path ++ " expects " ++ expected.display ++ " child node(s), found " ++
        toString found
  | .missingTypeTag name tag path =>
      "attribute `" ++ name ++ "` at " ++ path ++ " has no `" ++ tag ++ "` type tag"
  | .unknownType name tag path =>
      "attribute `" ++ name ++ "` at " ++ path ++ " declares unknown type `" ++ tag ++ "`"
  | .missingAttribute name path =>
      "missing required attribute `" ++ name ++ "` at " ++ path
  | .invalidAttribute name value fault path =>
      "invalid attribute `" ++ name ++ "`=" ++ Text.quoted value ++ " at " ++ path ++ ": " ++
        fault.message

end CompileError

end BehaviorTree
