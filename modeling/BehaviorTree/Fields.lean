/-! # Fields by name

Records are written down as entries, each a name and a value. A record has fields of known names:
entries of other names are passed over, and a known name may not be repeated. -/

namespace BehaviorTree

/-- The values that entries give to the fields `names`, in this order. -/
def fields? {α : Type} (names : List String) (entries : List (String × α)) :
    Option (List (Option α)) :=
  names.mapM fun name =>
    match entries.filter (·.1 == name) with
    | [] => some none
    | [entry] => some (some entry.2)
    | _ => none

/-- What is read from a field; a field that is left out has its usual value. -/
def given? {α β : Type} (read : α → Option β) (usual : β) : Option α → Option β
  | none => some usual
  | some value => read value

end BehaviorTree
