import BehaviorTree.Config
import BehaviorTree.Json.Record
import BehaviorTree.Log

/-! # The JSON forms of the library's data

Values, arguments, descriptions, settings and diagnostics are written to JSON and read back.
Compiled nodes are only written. A value is written bare, so that its type shows in its spelling: an
integer has neither point nor exponent, and a text has quotes. -/

namespace BehaviorTree

namespace ValueType

def jsonName : ValueType → String
  | .int => "int"
  | .float => "float"
  | .str => "str"

def toJson (type : ValueType) : Json := .string type.jsonName

def ofJson? : Json → Option ValueType := Json.choice? jsonName all

end ValueType

namespace Category

def jsonName : Category → String
  | .composite => "Composite"
  | .decorator => "Decorator"
  | .condition => "Condition"
  | .action => "Action"

def toJson (category : Category) : Json := .string category.jsonName

def ofJson? : Json → Option Category := Json.choice? jsonName all

end Category

namespace Value

def toJson : Value → Json
  | .int n => .integer n.toInt
  | .float x => .float x
  | .str s => .string s

/-- An integer of 64 bits with a sign stays an integer; every other number is taken as a
floating-point number. -/
def ofJson? : Json → Option Value
  | .integer n =>
      some (if -0x8000000000000000 ≤ n ∧ n ≤ 0x7fffffffffffffff then .int (Int64.ofInt n)
        else .float (.ofInt n))
  | .float x => some (.float x)
  | .string s => some (.str s)
  | _ => none

end Value

namespace Kwargs

def toJson (kwargs : Kwargs) : Json := Json.ofMap Value.toJson kwargs

def ofJson? (json : Json) : Option Kwargs := Json.map? Value.ofJson? json

end Kwargs

namespace Spec

mutual

def toJson : Spec → Json
  | ⟨space, category, kind, attributes, children⟩ => .object [
      ("namespace", .string space),
      ("category", .string category),
      ("kind", .string kind),
      ("attributes", Json.ofMap .string attributes),
      ("children", .array (toJsonAll children))]

def toJsonAll : List Spec → List Json
  | [] => []
  | spec :: rest => spec.toJson :: toJsonAll rest

end

/-- Reads a description whose arrays and objects nest at most `levels` deep. -/
def ofJsonWithin? : (levels : Nat) → Json → Option Spec
  | levels + 2, json => do
      match ← json.record? ["namespace", "category", "kind", "attributes", "children"] with
      | [some space, some category, some kind, some attributes, some children] =>
          return {
            space := ← space.str?
            category := ← category.str?
            kind := ← kind.str?
            attributes := ← attributes.map? Json.str?
            children := ← (← children.items?).mapM (ofJsonWithin? levels) }
      | _ => none
  | _, _ => none

/-- Reads a description; its arrays and objects nest fewer than 128 deep. -/
def ofJson? (json : Json) : Option Spec := ofJsonWithin? 127 json

end Spec

namespace Config

def toJson (config : Config) : Json := .object [
  ("qualifier_attribute", .string config.qualifierAttribute),
  ("type_tag_prefix", .string config.tagPrefix),
  ("type_tag_suffix", .string config.tagSuffix),
  ("loop_count_attribute", .string config.countAttribute),
  ("normalize_capability_names", .bool config.normalizeNames),
  ("legacy_type_tags", .bool config.legacyTags)]

def ofJson? (json : Json) : Option Config := do
  ofFields? Json.str? Json.bool? (← json.record? fieldNames)

end Config

namespace Diagnostic

def toJson (d : Diagnostic) : Json := .object [
  ("tick", .integer d.tick.toNat),
  ("capability", .string d.capability),
  ("message", .string d.message)]

def tickOfInt? (n : Int) : Option UInt64 :=
  if 0 ≤ n ∧ n ≤ 0xffffffffffffffff then some (UInt64.ofNat n.toNat) else none

def ofJson? (json : Json) : Option Diagnostic := do
  match ← json.record? ["tick", "capability", "message"] with
  | [some tick, some capability, some message] =>
      return ⟨← tickOfInt? (← tick.int?), ← capability.str?, ← message.str?⟩
  | _ => none

/-- The form of a list of diagnostics that a sink has kept. -/
def keptToJson (kept : List Diagnostic) : Json :=
  .object [("diagnostics", .array (kept.map toJson))]

def keptOfJson? (json : Json) : Option (List Diagnostic) := do
  match ← json.record? ["diagnostics"] with
  | [some diagnostics] => (← diagnostics.items?).mapM ofJson?
  | _ => none

end Diagnostic

namespace Leaf

/-- The form of a leaf under the name of its role. -/
def toJson (type : String) (leaf : Leaf) : Json := .object [
  ("type", .string type),
  ("capability", .string leaf.capability),
  ("kwargs", leaf.kwargs.toJson),
  ("path", .string leaf.path)]

end Leaf

namespace Node

mutual

def toJson : Node → Json
  | .composite (.alternate cursor) children => .object [
      ("type", .string "Alternate"),
      ("children", .array (toJsonAll children)),
      ("cursor", .integer cursor)]
  | .composite policy children => .object [
      ("type", .string policy.kind),
      ("children", .array (toJsonAll children))]
  | .loop count child => .object [
      ("type", .string "Loop"),
      ("count", .integer count.toNat),
      ("child", child.toJson)]
  | .leaf .condition bound => bound.toJson "Condition"
  | .leaf .action bound => bound.toJson "Action"

def toJsonAll : List Node → List Json
  | [] => []
  | node :: rest => node.toJson :: toJsonAll rest

end

end Node

end BehaviorTree
