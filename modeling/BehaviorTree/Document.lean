import BehaviorTree.Config
import BehaviorTree.Markup.Reader
import BehaviorTree.Spec

/-! # Tree documents

A document describes a tree. Its root holds one tree container, and the container the top node,
either directly or in one more element. A node is an element with the qualifier attribute; the names
of elements do not matter. The child nodes of a node stand directly in it or in elements that are
not nodes themselves: those are looked through once, and hold nothing but nodes. -/

namespace BehaviorTree

/-- The elements above the nodes of a document. -/
inductive Place where
  | root
  | container
  | nodes
  deriving DecidableEq

def Place.display : Place → String
  | .root => "document root"
  | .container => "tree container"
  | .nodes => "node list"

/-- Why a document does not describe a tree. Elements are given by name and line. -/
inductive DocumentError where
  | notXml
  | noChild (place : Place) (name : String) (line : Nat)
  | severalChildren (place : Place) (name : String) (line : Nat)
  | notNode (name : String) (line : Nat) (qualifierAttribute : String)
  | badQualifier (qualifier : String) (line : Nat)
  deriving DecidableEq

namespace DocumentError

def elementText (name : String) (line : Nat) : String :=
  "<" ++ name ++ "> on line " ++ toString line

def reason : DocumentError → String
  | .notXml => "invalid XML"
  | .noChild place name line =>
      place.display ++ " " ++ elementText name line ++ " has no child element"
  | .severalChildren place name line =>
      place.display ++ " " ++ elementText name line ++ " has more than one child element"
  | .notNode name line qualifierAttribute =>
      "element " ++ elementText name line ++ " has no `" ++ qualifierAttribute ++ "` attribute"
  | .badQualifier qualifier line =>
      "qualifier " ++ Text.quoted qualifier ++ " on line " ++ toString line ++
        " is not `Namespace.Category.Kind`"

def message (e : DocumentError) : String := "malformed document: " ++ e.reason

end DocumentError

/-! ## Qualifiers -/

/-- The parts of a text between its dots. -/
def segments : List Char → List (List Char)
  | [] => [[]]
  | c :: rest =>
      if c = '.' then [] :: segments rest
      else match segments rest with
        | [] => [[c]]
        | first :: others => (c :: first) :: others

/-- The three segments of a qualifier, none of them empty. -/
def splitQualifier? (qualifier : String) : Option (String × String × String) :=
  match segments qualifier.toList with
  | [space, category, kind] =>
      if space = [] ∨ category = [] ∨ kind = [] then none
      else some (String.ofList space, String.ofList category, String.ofList kind)
  | _ => none

/-! ## Nodes -/

namespace Document

open Markup (Attribute Element)

/-- The text of the qualifier attribute among some attributes. -/
def qualifier? (config : Config) (attributes : List Attribute) : Option String :=
  (attributes.find? fun a => a.space.isNone && a.name == config.qualifierAttribute).map (·.value)

/-- The attributes that a description keeps: all but those named like the qualifier attribute. -/
def keptAttributes (config : Config) (attributes : List Attribute) : NameMap String :=
  .ofList ((attributes.filter (·.name != config.qualifierAttribute)).map fun a => (a.name, a.value))

/-- The description of an element with this qualifier, over the descriptions of its children. -/
def describe (config : Config) (line : Nat) (attributes : List Attribute) (qualifier : String)
    (children : Except DocumentError (List Spec)) : Except DocumentError Spec :=
  match splitQualifier? qualifier with
  | none => .error (.badQualifier qualifier line)
  | some (space, category, kind) => do
      return ⟨space, category, kind, keptAttributes config attributes, ← children⟩

mutual

/-- The description of an element that has to be a node. -/
def readNode (config : Config) : Element → Except DocumentError Spec
  | ⟨name, line, attributes, children⟩ => match qualifier? config attributes with
    | none => .error (.notNode name line config.qualifierAttribute)
    | some qualifier => describe config line attributes qualifier (readChildren config children)

/-- The nodes that a child element stands for: itself, or those that it holds. -/
def readChild (config : Config) : Element → Except DocumentError (List Spec)
  | ⟨_, line, attributes, children⟩ => match qualifier? config attributes with
    | none => readNodes config children
    | some qualifier => do
        return [← describe config line attributes qualifier (readChildren config children)]

/-- The nodes that the child elements of a node stand for, in order. -/
def readChildren (config : Config) : List Element → Except DocumentError (List Spec)
  | [] => .ok []
  | child :: rest => do
      let here ← readChild config child
      let later ← readChildren config rest
      return here ++ later

/-- The descriptions of elements that all have to be nodes. -/
def readNodes (config : Config) : List Element → Except DocumentError (List Spec)
  | [] => .ok []
  | element :: rest => do
      let node ← readNode config element
      let nodes ← readNodes config rest
      return node :: nodes

end

/-- The only child of an element at a place above the nodes. -/
def single (place : Place) (element : Element) : Except DocumentError Element :=
  match element.children with
  | [] => .error (.noChild place element.name element.line)
  | [child] => .ok child
  | _ => .error (.severalChildren place element.name element.line)

/-- The description of the top node under the root element of a document. -/
def readRoot (config : Config) (root : Element) : Except DocumentError Spec := do
  let container ← single .root root
  let top ← single .container container
  match qualifier? config top.attributes with
  | some _ => readNode config top
  | none => readNode config (← single .nodes top)

/-- The description that a document gives of its tree. -/
def read (config : Config) (text : String) : Except DocumentError Spec :=
  match Markup.read text with
  | none => .error .notXml
  | some root => readRoot config root

end Document

end BehaviorTree
