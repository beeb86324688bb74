/-! # Elements of a document

A document is read into a tree of elements. Of an element only its name, its place, its attributes
and its child elements are kept; text, comments and processing instructions carry nothing here. -/

namespace BehaviorTree.Markup

/-- An attribute: the namespace it is in, if any, its name inside it, and its value. -/
structure Attribute where
  space : Option String
  name : String
  value : String
  deriving DecidableEq

/-- An element; `line` is the line of the document on which its tag opens. -/
structure Element where
  name : String
  line : Nat
  attributes : List Attribute
  children : List Element

namespace Element

instance : Inhabited Element := ⟨⟨"", 0, [], []⟩⟩

/-- The value of the attribute with this name in no namespace. -/
def attribute? (element : Element) (name : String) : Option String :=
  (element.attributes.find? fun a => a.space.isNone && a.name == name).map (·.value)

end Element

end BehaviorTree.Markup
