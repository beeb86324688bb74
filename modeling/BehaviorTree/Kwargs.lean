import BehaviorTree.NameMap
import BehaviorTree.Value

/-! # Keyword arguments

What a leaf passes to its capability: values bound to names, kept in the order of the names. -/

namespace BehaviorTree

/-- Values bound to names. -/
abbrev Kwargs := NameMap Value

namespace Kwargs

def int? (kwargs : Kwargs) (name : String) : Option Int64 := (kwargs.get? name).bind Value.int?

/-- The number bound to `name`, an integer being widened. -/
def float? (kwargs : Kwargs) (name : String) : Option Binary64 :=
  (kwargs.get? name).bind Value.float?

def str? (kwargs : Kwargs) (name : String) : Option String := (kwargs.get? name).bind Value.str?

/-- Whether two entry lists have the same names in the same order, with equal values. -/
def agreeing : List (String × Value) → List (String × Value) → Bool
  | [], [] => true
  | a :: as, b :: bs => a.1 == b.1 && a.2.agrees b.2 && agreeing as bs
  | _, _ => false

/-- Equality of arguments, with values compared as numbers and texts. -/
def agrees (a b : Kwargs) : Bool := agreeing a.entries b.entries

end Kwargs

end BehaviorTree
