import BehaviorTree.CompileError
import BehaviorTree.Config
import BehaviorTree.Kwargs

/-! # Keyword arguments from attributes

Every attribute of a leaf that is not metadata becomes a keyword argument: its type tag, another
attribute of the same node, says how its text is read, and its name is lower-cased. Attributes are
taken in the order of their names, and the first one that cannot be bound decides the error. -/

namespace BehaviorTree

/-- The value of one attribute, read as its type tag says. -/
def attributeValue (config : Config) (path : String) (attributes : NameMap String)
    (name text : String) : Except CompileError Value :=
  match attributes.get? (config.typeTagName name) with
  | none => .error (.missingTypeTag name (config.typeTagName name) path)
  | some tag => match config.valueType? tag with
    | none => .error (.unknownType name tag path)
    | some type => match Value.parse type text with
      | .error misread => .error (.invalidAttribute name text (.misread misread) path)
      | .ok value => .ok value

/-- Binds one attribute to its keyword. If that gives back what an earlier attribute was bound to,
the keyword was taken. -/
def bindAttribute (config : Config) (path : String) (attributes : NameMap String) (kwargs : Kwargs)
    (entry : String × String) : Except CompileError Kwargs :=
  let (name, text) := entry
  if config.isMetadata name then .ok kwargs
  else match attributeValue config path attributes name text with
    | .error e => .error e
    | .ok value => match kwargs.exchange (Text.lowercase name) value with
      | (some _, _) => .error (.invalidAttribute name text .keywordTaken path)
      | (none, kwargs) => .ok kwargs

/-- The keyword arguments of a node with these attributes at `path`. -/
def arguments (config : Config) (path : String) (attributes : NameMap String) :
    Except CompileError Kwargs :=
  attributes.entries.foldlM (bindAttribute config path attributes) .empty

theorem bindAttribute_eq (config : Config) (path : String) (attributes : NameMap String)
    (kwargs : Kwargs) (name text : String) :
    bindAttribute config path attributes kwargs (name, text) =
      if config.isMetadata name then .ok kwargs
      else match attributeValue config path attributes name text with
        | .error e => .error e
        | .ok value =>
            if kwargs.contains (Text.lowercase name) then
              .error (.invalidAttribute name text .keywordTaken path)
            else .ok (kwargs.insert (Text.lowercase name) value) := by
  rw [bindAttribute]
  split
  · rfl
  · cases attributeValue config path attributes name text with
    | error e => rfl
    | ok value =>
        dsimp only
        rw [NameMap.exchange_eq, NameMap.contains]
        cases kwargs.get? (Text.lowercase name) <;> rfl

end BehaviorTree
