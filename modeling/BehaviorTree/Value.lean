import BehaviorTree.Binary64.Text
import BehaviorTree.Text.Blank
import BehaviorTree.Text.Integer
import BehaviorTree.Text.Quoted

/-! # Typed values

The attributes of a node are texts. A type tag says how to read one: as an integer of 64 bits, as a
floating-point number, or as the text that it is. Numbers may have blanks around them. -/

namespace BehaviorTree

/-- The types that an attribute can declare. -/
inductive ValueType where
  | int
  | float
  | str
  deriving DecidableEq

namespace ValueType

def all : List ValueType := [.int, .float, .str]

def tag : ValueType → String
  | .int => "int"
  | .float => "float"
  | .str => "string"

/-- The type that a tag declares. Tags are compared exactly. -/
def ofTag? (tag : String) : Option ValueType :=
  match tag with
  | "int" => some .int
  | "float" => some .float
  | "string" => some .str
  | _ => none

theorem tag_of_ofTag? {tag : String} {type : ValueType} (h : ofTag? tag = some type) :
    type.tag = tag := by
  unfold ofTag? at h
  split at h <;> cases h <;> rfl

end ValueType

/-- A typed value. -/
inductive Value where
  | int (n : Int64)
  | float (x : Binary64)
  | str (s : String)
  deriving DecidableEq

instance : Inhabited Value := ⟨.str ""⟩

namespace Value

/-- What is wrong with a text that is not of the declared type. -/
inductive Fault where
  | integer (fault : Text.IntegerFault)
  | float (fault : Binary64.ReadFault)
  deriving DecidableEq

def Fault.message : Fault → String
  | .integer fault => fault.message
  | .float fault => fault.message

/-- A text that could not be read as a type; `text` is the whole text, blanks included. -/
structure Misread where
  type : ValueType
  text : String
  fault : Fault
  deriving DecidableEq

def Misread.message (m : Misread) : String :=
  "cannot parse " ++ Text.quoted m.text ++ " as " ++ m.type.tag ++ ": " ++ m.fault.message

/-- Reads a text as a value of a type. Blanks around a number are dropped, a text is taken as it
is. -/
def parse (type : ValueType) (text : String) : Except Misread Value :=
  match type with
  | .int => match Text.readInteger .int64 (Text.trim text) with
    | .ok n => .ok (.int (Int64.ofInt n))
    | .error fault => .error ⟨.int, text, .integer fault⟩
  | .float => match Binary64.read (Text.trim text) with
    | .ok x => .ok (.float x)
    | .error fault => .error ⟨.float, text, .float fault⟩
  | .str => .ok (.str text)

def type : Value → ValueType
  | .int _ => .int
  | .float _ => .float
  | .str _ => .str

def int? : Value → Option Int64
  | .int n => some n
  | _ => none

/-- The floating-point number that a value is; an integer is widened to the nearest one. -/
def float? : Value → Option Binary64
  | .int n => some (.ofInt n.toInt)
  | .float x => some x
  | .str _ => none

def str? : Value → Option String
  | .str s => some s
  | _ => none

/-- How a value is shown: numbers plainly, texts between quotes. -/
def display : Value → String
  | .int n => toString n.toInt
  | .float x => x.plainText
  | .str s => Text.quoted s

/-- Equality of values as numbers and texts: values of two types differ, a number that is not one
differs from itself, and the two zeros are equal. -/
def agrees : Value → Value → Bool
  | .int m, .int n => m == n
  | .float x, .float y => x.agrees y
  | .str s, .str t => s == t
  | _, _ => false

end Value

end BehaviorTree
