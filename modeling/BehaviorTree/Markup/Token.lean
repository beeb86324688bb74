import BehaviorTree.Markup.Character
import BehaviorTree.Text.Digits

/-! # Tokens of a document

A document is cut into tags, runs of text and what is passed over: comments, processing instructions
and quoted sections of text. Names are split at their colon and references are replaced by what
they stand for; nothing is looked up yet. -/

namespace BehaviorTree.Markup

/-- A name as it is written: what stands before its colon, which may be nothing, and the rest. -/
structure TagName where
  before : String
  name : String
  deriving DecidableEq

/-- A piece of a document. -/
inductive Token where
  | start (name : TagName) (attributes : List (TagName × String)) (closed : Bool)
  | close (name : TagName)
  | text (blank : Bool)
  | verbatim
  | passed

/-- The text after a marker that has to stand here. -/
def expect (marker : String) (text : List Char) : Option (List Char) :=
  if marker.toList.isPrefixOf text then some (text.drop marker.length) else none

/-- Splits a text around the first occurrence of a marker. -/
def readUntil (marker : String) : List Char → Option (List Char × List Char)
  | [] => none
  | c :: rest => match expect marker (c :: rest) with
    | some rest => some ([], rest)
    | none => (readUntil marker rest).map fun (body, rest) => (c :: body, rest)

def skipSpace (text : List Char) : List Char := text.dropWhile isSpace

/-! ## References -/

/-- The character with a number that a reference may spell. A number of 32 bits without a character
stands for the replacement character. -/
def charOf? (n : Nat) : Option Char :=
  if Nat.pow 2 32 ≤ n then none
  else
    let c := if n.isValidChar then Char.ofNat n else '\uFFFD'
    if isAllowed c then some c else none

/-- The character that a reference between an ampersand and a semicolon stands for. -/
def reference? : List Char → Option Char
  | '#' :: 'x' :: digits => (Text.number? 16 digits).bind charOf?
  | '#' :: digits => (Text.number? 10 digits).bind charOf?
  | name => match String.ofList name with
    | "quot" => some '"'
    | "amp" => some '&'
    | "apos" => some '\''
    | "lt" => some '<'
    | "gt" => some '>'
    | _ => none

/-- Replaces the references of a text; `pending` holds what has been read of one, backwards. -/
def replaceReferences : (pending : Option (List Char)) → List Char → Option (List Char)
  | none, [] => some []
  | some _, [] => none
  | none, '&' :: rest => replaceReferences (some []) rest
  | none, c :: rest => (replaceReferences none rest).map (c :: ·)
  | some name, ';' :: rest => do
      let c ← reference? name.reverse
      let rest ← replaceReferences none rest
      return c :: rest
  | some name, c :: rest => replaceReferences (some (c :: name)) rest

/-- Line breaks and tabs inside the value of an attribute are spaces. -/
def flattenSpace : List Char → List Char
  | [] => []
  | '\r' :: '\n' :: rest => ' ' :: flattenSpace rest
  | c :: rest => (if isSpace c then ' ' else c) :: flattenSpace rest

/-! ## Parts of tags -/

/-- A name that may have one colon; what stands on either side of it is a name by itself. -/
def readTagName (text : List Char) : Option (TagName × List Char) :=
  let (word, rest) := text.span isNameChar
  let (before, name) := match word.span (· != ':') with
    | (before, ':' :: name) => (before, name)
    | (name, _) => ([], name)
  if name.all (· != ':') && (name.head?.any isNameStart) && before.head?.all isNameStart then
    some (⟨String.ofList before, String.ofList name⟩, rest)
  else none

/-- A name, an equals sign and a quoted value, which is left as it is written. -/
def readBinding (text : List Char) : Option ((TagName × List Char) × List Char) := do
  let (name, rest) ← readTagName text
  let rest ← expect "=" (skipSpace rest)
  match skipSpace rest with
  | quote :: rest =>
      if quote = '"' ∨ quote = '\'' then
        let (value, rest) := rest.span fun c => c != quote && c != '<'
        return ((name, value), ← expect quote.toString rest)
      else none
  | [] => none

/-- An attribute, with its value as it is meant. -/
def readAttribute (text : List Char) : Option ((TagName × String) × List Char) := do
  let ((name, written), rest) ← readBinding text
  let value ← replaceReferences none (flattenSpace written)
  return ((name, String.ofList value), rest)

/-- The attributes of a tag up to its end, each after some space, and whether the tag closes itself;
`fuel` bounds their number. -/
def readAttributes : (fuel : Nat) → List Char →
    Option (List (TagName × String) × Bool × List Char)
  | 0, _ => none
  | fuel + 1, text => match skipSpace text with
    | [] => none
    | '>' :: rest => some ([], false, rest)
    | '/' :: rest => do
        let rest ← expect ">" rest
        return ([], true, rest)
    | next => do
        if ¬ text.head?.any isSpace then none
        let (first, rest) ← readAttribute next
        let (more, closed, rest) ← readAttributes fuel rest
        return (first :: more, closed, rest)

/-! ## Tokens -/

/-- A comment after its opening; no two hyphens stand together in it, nor one before its end. -/
def readComment (text : List Char) : Option (List Char) := do
  let (body, rest) ← readUntil "-->" text
  if (readUntil "--" body).isSome || body.getLast? == some '-' then none else return rest

/-- A processing instruction after its opening. The declaration of a document is not one. -/
def readInstruction (text : List Char) : Option (List Char) := do
  if (expect "xml " text).isSome then none
  if ¬ text.head?.any isNameStart then none
  let (_, rest) ← readUntil "?>" (text.dropWhile isNameChar)
  return rest

/-- The token at the front of a text, and the text after it. -/
def readToken : List Char → Option (Token × List Char)
  | '<' :: '!' :: '-' :: '-' :: rest => do return (.passed, ← readComment rest)
  | '<' :: '!' :: rest => do
      let rest ← expect "[CDATA[" rest
      let (_, rest) ← readUntil "]]>" rest
      return (.verbatim, rest)
  | '<' :: '?' :: rest => do return (.passed, ← readInstruction rest)
  | '<' :: '/' :: rest => do
      let (name, rest) ← readTagName rest
      let rest ← expect ">" (skipSpace rest)
      return (.close name, rest)
  | '<' :: rest => do
      let (name, rest) ← readTagName rest
      let (attributes, closed, rest) ← readAttributes (rest.length + 1) rest
      return (.start name attributes closed, rest)
  | text => do
      let (run, rest) := text.span (· != '<')
      if (readUntil "]]>" run).isSome then none
      let _ ← replaceReferences none run
      return (.text (run.all isSpace), rest)

/-- Cuts a text into tokens, each with the line on which it begins; `fuel` bounds their number. -/
def readTokens : (fuel : Nat) → (line : Nat) → List Char → Option (List (Token × Nat))
  | _, _, [] => some []
  | 0, _, _ => none
  | fuel + 1, line, text => do
      let (token, rest) ← readToken text
      let passed := text.take (text.length - rest.length)
      let tokens ← readTokens fuel (line + passed.count '\n') rest
      return (token, line) :: tokens

end BehaviorTree.Markup
