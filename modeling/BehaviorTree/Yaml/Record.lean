import BehaviorTree.Fields
import BehaviorTree.NameMap
import BehaviorTree.Yaml.Meaning

/-! # What YAML values mean

Records, maps, texts and truth values in YAML. A place where nothing is written counts as a record
or map without entries. -/

namespace BehaviorTree.Yaml

/-- The text of a scalar, however it is written. -/
def text? : Yaml → Option String
  | .scalar _ text => some text
  | _ => none

def bool? (yaml : Yaml) : Option Bool :=
  match yaml.meaning? with
  | some (.bool b) => some b
  | _ => none

def items? : Yaml → Option (List Yaml)
  | .sequence items => some items
  | _ => none

/-- The entries of a mapping whose keys are texts, in order; none where nothing is written. -/
def entries? : Yaml → Option (List (String × Yaml))
  | .scalar true "" => some []
  | .mapping entries => entries.mapM fun (key, value) => do return (← key.text?, value)
  | _ => none

/-- The map of a mapping, its values being read by `read`; of repeated keys the last one stays. -/
def map? {α : Type} (read : Yaml → Option α) (yaml : Yaml) : Option (NameMap α) := do
  let entries ← (← yaml.entries?).mapM fun (name, value) => do return (name, ← read value)
  return .ofList entries

end BehaviorTree.Yaml
