import BehaviorTree.Fields
import BehaviorTree.Text.Lowercase
import BehaviorTree.Value

/-! # Compiler settings

The settings name the attributes that have a meaning of their own and say how names are taken. Every
setting has a default. -/

namespace BehaviorTree

/-- How node descriptions are read. -/
structure Config where
  /-- The attribute that holds the qualifier of a node. -/
  qualifierAttribute : String := "Class"
  /-- What the names of metadata attributes start with. -/
  tagPrefix : String := "_"
  /-- What ends the name of a type tag. -/
  tagSuffix : String := "Type"
  /-- The attribute that holds the count of a loop. -/
  countAttribute : String := "Count"
  /-- Whether the names of capabilities are lower-cased. -/
  normalizeNames : Bool := true
  /-- Whether the older tag for texts is accepted too. -/
  legacyTags : Bool := false
  deriving DecidableEq

namespace Config

def default : Config := {}

instance : Inhabited Config := ⟨default⟩

/-- The names of the settings in files, in their declared order. -/
def fieldNames : List String :=
  ["qualifier_attribute", "type_tag_prefix", "type_tag_suffix", "loop_count_attribute",
    "normalize_capability_names", "legacy_type_tags"]

/-- The settings that fields in the order of `fieldNames` give. Each may be left out. -/
def ofFields? {α : Type} (text? : α → Option String) (bool? : α → Option Bool) :
    List (Option α) → Option Config
  | [qualifier, tagPrefix, tagSuffix, count, normalize, legacy] => do
      return {
        qualifierAttribute := ← given? text? default.qualifierAttribute qualifier
        tagPrefix := ← given? text? default.tagPrefix tagPrefix
        tagSuffix := ← given? text? default.tagSuffix tagSuffix
        countAttribute := ← given? text? default.countAttribute count
        normalizeNames := ← given? bool? default.normalizeNames normalize
        legacyTags := ← given? bool? default.legacyTags legacy }
  | _ => none

/-- What makes settings unusable: an attribute without a name, or a prefix that every name has. -/
inductive Fault where
  | emptyTagPrefix
  | emptyQualifierAttribute
  | emptyCountAttribute
  deriving DecidableEq

def Fault.message : Fault → String
  | .emptyTagPrefix => "type_tag_prefix must not be empty"
  | .emptyQualifierAttribute => "qualifier_attribute must not be empty"
  | .emptyCountAttribute => "loop_count_attribute must not be empty"

/-- The first thing that makes the settings unusable. -/
def fault? (config : Config) : Option Fault :=
  if config.tagPrefix = "" then some .emptyTagPrefix
  else if config.qualifierAttribute = "" then some .emptyQualifierAttribute
  else if config.countAttribute = "" then some .emptyCountAttribute
  else none

def typeTagName (config : Config) (name : String) : String :=
  config.tagPrefix ++ name ++ config.tagSuffix

/-- Whether an attribute is metadata, and so never a keyword argument. -/
def isMetadata (config : Config) (name : String) : Bool :=
  name == config.qualifierAttribute ||
    config.tagPrefix.toList.isPrefixOf name.toList

/-- The type that a tag declares under these settings. -/
def valueType? (config : Config) (tag : String) : Option ValueType :=
  match ValueType.ofTag? tag with
  | some type => some type
  | none => if config.legacyTags ∧ tag = "str" then some .str else none

/-- The capability that a leaf of this kind is bound to. -/
def capabilityName (config : Config) (kind : String) : String :=
  if config.normalizeNames then Text.lowercase kind else kind

end Config

end BehaviorTree
