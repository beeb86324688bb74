/-! # Node categories

The middle segment of a qualifier names the category of a node. -/

namespace BehaviorTree

/-- What a node is to the tree. -/
inductive Category where
  | composite
  | decorator
  | condition
  | action
  deriving DecidableEq

namespace Category

def all : List Category := [.composite, .decorator, .condition, .action]

def segment : Category → String
  | .composite => "Composites"
  | .decorator => "Decorators"
  | .condition => "Conditions"
  | .action => "Actions"

/-- The category that a segment names. Segments are compared exactly. -/
def ofSegment? (segment : String) : Option Category := all.find? (·.segment == segment)

def display : Category → String
  | .composite => "composite"
  | .decorator => "decorator"
  | .condition => "condition"
  | .action => "action"

theorem ofSegment?_segment (category : Category) :
    ofSegment? category.segment = some category := by
  cases category <;> decide

theorem segment_of_ofSegment? {segment : String} {category : Category}
    (h : ofSegment? segment = some category) : category.segment = segment := by
  simpa using List.find?_some h

/-- A text names a category exactly when it is that category's segment. -/
theorem ofSegment?_eq_some_iff {segment : String} {category : Category} :
    ofSegment? segment = some category ↔ segment = category.segment :=
  ⟨fun h => (segment_of_ofSegment? h).symm, fun h => h ▸ ofSegment?_segment category⟩

end Category

end BehaviorTree
