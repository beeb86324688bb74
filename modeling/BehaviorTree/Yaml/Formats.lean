import BehaviorTree.Program
import BehaviorTree.Yaml.Record

/-! # Settings and scripts in YAML

One pair of formats: a record with the six settings, and a record with the map of the capabilities,
both written in the part of YAML that is read here. In settings and in the record of a script every
field may be left out. -/

namespace BehaviorTree

def Config.ofYaml? (yaml : Yaml) : Option Config := do
  ofFields? Yaml.text? Yaml.bool? (← fields? fieldNames (← yaml.entries?))

namespace CapabilityScript

/-- What the key of a detailed shape stands for: one of its two fields, by name or by number, or
something that is passed over. Other keys than texts and natural numbers are refused. -/
def keyName? (yaml : Yaml) : Option String :=
  match yaml.meaning? with
  | some (.text name) => some name
  | some (.natural 0) => some "results"
  | some (.natural 1) => some "fail"
  | some (.natural _) => some ""
  | _ => none

/-- The message of a failure: a text, or nothing. A number or truth value is no text. -/
def message? (yaml : Yaml) : Option (Option String) :=
  match yaml.meaning? with
  | some .null => some none
  | some (.text message) => some (some message)
  | _ => none

def results? (yaml : Yaml) : Option (List Bool) := do (← yaml.items?).mapM Yaml.bool?

/-- What is written for a capability: one result, a list of results, or a mapping with results and a
failure, both of which may be left out. It is held whole before it is looked into; its collections
nest at most 126 deep, being two levels down in a script that nests at most 128 deep. -/
def ofYaml? (yaml : Yaml) : Option CapabilityScript :=
  if ¬ yaml.isHeld 126 then none
  else match yaml with
  | .scalar .. => yaml.bool?.map .constant
  | .sequence _ => (results? yaml).map .cycle
  | .mapping entries => do
      let entries ← entries.mapM fun (key, value) => do return (← keyName? key, value)
      match ← fields? ["results", "fail"] entries with
      | [results, fail] =>
          return .detailed (← given? results? [] results) (← given? message? none fail)
      | _ => none

end CapabilityScript

def Script.ofYaml? (yaml : Yaml) : Option Script := do
  match ← fields? ["capabilities"] (← yaml.entries?) with
  | [some capabilities] => capabilities.map? CapabilityScript.ofYaml?
  | _ => return .empty

namespace Formats

/-- What a YAML text is read as, which is `usual` if it holds no document. -/
def readYaml {α : Type} (read : Yaml → Option α) (usual : α) (text : String) : Except String α :=
  match Yaml.read text with
  | none => .error "not one document of the YAML that is read"
  | some none => .ok usual
  | some (some yaml) => match read yaml with
    | none => .error "not a value of the expected form"
    | some a => .ok a

/-- Settings and scripts in YAML. -/
def yaml : Formats := ⟨readYaml Config.ofYaml? .default, readYaml Script.ofYaml? .empty⟩

end Formats

end BehaviorTree
