import BehaviorTree.Binary64.Text

/-! # JSON values

Numbers are kept as what they mean: a text of digits alone is an integer if it fits in 64 bits, any
other number is a floating-point number. Objects keep their fields as they were written, in order
and with repetitions. -/

namespace BehaviorTree

/-- A JSON value. A number that is too large, and a value with a text that spells half of a
surrogate pair, have no meaning of their own and are `illFormed`; they can only be passed over. -/
inductive Json where
  | null
  | bool (b : Bool)
  | integer (n : Int)
  | float (x : Binary64)
  | string (s : String)
  | array (items : List Json)
  | object (fields : List (String × Json))
  | illFormed

namespace Json

instance : Inhabited Json := ⟨.null⟩

def int? : Json → Option Int
  | .integer n => some n
  | _ => none

def bool? : Json → Option Bool
  | .bool b => some b
  | _ => none

def str? : Json → Option String
  | .string s => some s
  | _ => none

def items? : Json → Option (List Json)
  | .array items => some items
  | _ => none

/-- The characters that a text spells by a backslash and one more character. -/
def shortEscapes : List (Char × Char) :=
  [('"', '"'), ('\\', '\\'), ('\x08', 'b'), ('\x0c', 'f'), ('\n', 'n'), ('\r', 'r'), ('\t', 't')]

end Json

end BehaviorTree
