import BehaviorTree.Fields
import BehaviorTree.Json.Basic
import BehaviorTree.NameMap

/-! # Records and maps in JSON

A record is an object with fields of known names, in any order. An array of the values in the
declared order serves as well; values may be missing at its end. A map is an object; of repeated
names the last one stays. -/

namespace BehaviorTree.Json

/-- The values that a record gives to the fields `names`, in this order. -/
def record? (names : List String) : Json → Option (List (Option Json))
  | .object fields => fields? names fields
  | .array items =>
      if items.length ≤ names.length then
        some (items.map some ++ List.replicate (names.length - items.length) none)
      else none
  | _ => none

/-- The map that an object writes down, its values being read by `read`. -/
def map? {α : Type} (read : Json → Option α) : Json → Option (NameMap α)
  | .object fields => do
      let entries ← fields.mapM fun (name, value) => do return (name, ← read value)
      return .ofList entries
  | _ => none

/-- The object of a map, in the order of its names. -/
def ofMap {α : Type} (write : α → Json) (map : NameMap α) : Json :=
  .object (map.entries.map fun (name, value) => (name, write value))

/-- One of several names, as a text or as an object that gives nothing to it. -/
def choice? {α : Type} (name : α → String) (choices : List α) : Json → Option α
  | .string s => choices.find? (name · == s)
  | .object [(s, .null)] => choices.find? (name · == s)
  | _ => none

end BehaviorTree.Json
