import BehaviorTree.Markup.Element
import BehaviorTree.Markup.Token

/-! # Reading documents

A document is a declaration that may be left out and one element, with comments and processing
instructions around it. Its tags nest. Names before a colon stand for namespaces, which are declared
by attributes: a declaration holds in its element and below. Document types are refused. -/

namespace BehaviorTree.Markup

/-- The namespace that the name `xml` always stands for. Attributes can be in it, elements not. -/
def xmlSpace : String := "http://www.w3.org/XML/1998/namespace"

/-- The namespace of declarations, which no name may stand for. -/
def declarationSpace : String := "http://www.w3.org/2000/xmlns/"

/-- The namespaces that names stand for; the first entry of a name counts. -/
abbrev Scope := List (String × String)

/-- The namespaces that the attributes of a tag declare. A name is declared once, `xml` only for its
own namespace and no other name for that one. A default namespace has no bearing on attributes and
is only checked. -/
def declared : List (TagName × String) → (own : Scope) → Option Scope
  | [], own => some own
  | (name, value) :: rest, own =>
      if name.before = "xmlns" then
        if value = declarationSpace then none
        else if (name.name == "xml") != (value == xmlSpace) then none
        else if (own.lookup name.name).isSome then none
        else declared rest (if name.name = "xml" then own else (name.name, value) :: own)
      else if name.name = "xmlns" then
        if value = xmlSpace ∨ value = declarationSpace then none else declared rest own
      else declared rest own

/-- The attribute that a written one is in a scope. -/
def resolve (scope : Scope) (written : TagName × String) : Option Attribute := do
  let (name, value) := written
  if name.before = "" then return ⟨none, name.name, value⟩
  else if name.before = "xml" then return ⟨some xmlSpace, name.name, value⟩
  else return ⟨some (← scope.lookup name.before), name.name, value⟩

/-- Whether two attributes of a list have the same namespace and name. -/
def hasRepetition : List Attribute → Bool
  | [] => false
  | a :: rest => rest.any (fun b => a.space == b.space && a.name == b.name) || hasRepetition rest

/-- The attributes of a tag in the scope around it, and the scope inside. -/
def attributesIn (scope : Scope) (name : TagName) (written : List (TagName × String)) :
    Option (List Attribute × Scope) := do
  if name.before = "xmlns" then none
  let inner := (← declared written []) ++ scope
  if name.before ≠ "" ∧ (inner.lookup name.before).isNone then none
  let kept := written.filter fun (name, _) => name.before != "xmlns" && name.name != "xmlns"
  let attributes ← kept.mapM (resolve inner)
  if hasRepetition attributes then none else return (attributes, inner)

/-- An element whose end has not been read: its children so far are in reverse order. -/
structure Opened where
  tag : TagName
  line : Nat
  attributes : List Attribute
  scope : Scope
  children : List Element

/-- The element of an opened one that has come to its end. -/
def Opened.element (opened : Opened) : Element :=
  ⟨opened.tag.name, opened.line, opened.attributes, opened.children.reverse⟩

/-- Nests tokens: `opened` holds the elements around the next token, the innermost first, and `root`
the outermost element once it is complete. -/
def nest : (opened : List Opened) → (root : Option Element) → List (Token × Nat) → Option Element
  | [], root, [] => root
  | _ :: _, _, [] => none
  | opened, root, (.passed, _) :: rest => nest opened root rest
  | [], root, (.text blank, _) :: rest => if blank then nest [] root rest else none
  | opened, root, (.text _, _) :: rest => nest opened root rest
  | [], _, (.verbatim, _) :: _ => none
  | opened, root, (.verbatim, _) :: rest => nest opened root rest
  | [], _, (.close _, _) :: _ => none
  | inner :: outer, root, (.close name, _) :: rest =>
      if inner.tag = name then
        match outer with
        | [] => nest [] (some inner.element) rest
        | parent :: outer =>
            nest ({ parent with children := inner.element :: parent.children } :: outer) root rest
      else none
  | [], some _, (.start .., _) :: _ => none
  | [], none, (.start name written closed, line) :: rest => do
      let (attributes, scope) ← attributesIn [] name written
      let inner : Opened := ⟨name, line, attributes, scope, []⟩
      if closed then nest [] (some inner.element) rest else nest [inner] none rest
  | parent :: outer, root, (.start name written closed, line) :: rest => do
      let (attributes, scope) ← attributesIn parent.scope name written
      let inner : Opened := ⟨name, line, attributes, scope, []⟩
      if closed then
        nest ({ parent with children := inner.element :: parent.children } :: outer) root rest
      else nest (inner :: parent :: outer) root rest

/-- One of the parts of a declaration, if it stands here. -/
def readDeclared (name : String) (text : List Char) : Option (List Char) :=
  if (expect name text).isSome then do
    let (_, rest) ← readBinding text
    if rest.head?.all isSpace || (expect "?>" rest).isSome then return skipSpace rest else none
  else some text

/-- The text after the declaration of a document, if it has one. A declaration gives a version, and
may go on with an encoding and with whether the document stands alone. -/
def readDeclaration (text : List Char) : Option (List Char) :=
  match expect "<?xml " text with
  | none => some text
  | some rest => do
      let rest := skipSpace rest
      if (expect "version" rest).isNone then none
      let rest ← readDeclared "version" rest
      let rest ← readDeclared "encoding" rest
      let rest ← readDeclared "standalone" rest
      expect "?>" rest

/-- The root element of a document; `none` when the text is not a document. A byte order mark at its
front is passed over. -/
def read (s : String) : Option Element := do
  let text := match s.toList with
    | '\uFEFF' :: rest => rest
    | text => text
  if ¬ text.all isAllowed then none
  let body ← readDeclaration text
  let line := 1 + (text.take (text.length - body.length)).count '\n'
  let tokens ← readTokens body.length line body
  nest [] none tokens

end BehaviorTree.Markup
