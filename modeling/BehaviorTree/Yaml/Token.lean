import BehaviorTree.Yaml.Scalar

/-! # Tokens of YAML

A text is cut into tokens before it is read. Indentation shows in them: a sequence or mapping that
is laid out by indentation has a token where it begins and one where it ends. A key needs no mark of
its own, so every place where one may begin is remembered until a colon follows on the same line,
within 1024 bytes; then the tokens that belong before the key are put there. -/

namespace BehaviorTree.Yaml

/-- The parts of a text. -/
inductive Token where
  | scalar (plain : Bool) (text : String)
  | documentStart
  | documentEnd
  | sequenceStart
  | mappingStart
  | blockEnd
  | item
  | key
  | value
  | bracketOpen
  | bracketClose
  | braceOpen
  | braceClose
  | comma
  deriving DecidableEq

/-- A place where a key may have begun, with the number of tokens before it. It is `required` at the
indentation of an open mapping or sequence, where nothing but a key could stand. -/
structure Candidate where
  place : Place
  index : Nat
  required : Bool

/-- How far a text has been cut into tokens. `columns` are those of the collections by indentation
that are open, the innermost first. `candidate` is where a key may have begun inside the innermost
bracket, `outer` the same for what is around it, bracket by bracket. -/
structure Scan where
  cursor : Cursor
  tokens : Array Token
  columns : List Nat
  candidate : Option Candidate
  outer : List (Option Candidate)
  keyAllowed : Bool

namespace Scan

def ofText (text : List Char) : Scan := ⟨.ofText text, #[], [], none, [], true⟩

def inFlow (scan : Scan) : Bool := !scan.outer.isEmpty

def column (scan : Scan) : Nat := scan.cursor.place.column

/-- Adds a token and passes over its characters. -/
def emit (scan : Scan) (token : Token) (length : Nat) : Scan :=
  { scan with tokens := scan.tokens.push token, cursor := scan.cursor.advance length }

/-- Passes over what separates tokens. A key may begin on a new line. -/
def skip (scan : Scan) : Scan :=
  let cursor := scan.cursor.skip scan.inFlow (scan.inFlow || !scan.keyAllowed)
  let broken := scan.cursor.place.line < cursor.place.line
  { scan with cursor, keyAllowed := scan.keyAllowed || (broken && !scan.inFlow) }

/-- A candidate as seen from a later place, if it can still be a key there. One that has to be a key
cannot be given up. -/
def expire? (place : Place) : Option Candidate → Option (Option Candidate)
  | none => some none
  | some key =>
      if key.place.line < place.line || key.place.offset + 1024 < place.offset then
        if key.required then none else some none
      else some (some key)

/-- Gives up the candidates that are too far away. -/
def expireAll? (scan : Scan) : Option Scan := do
  return { scan with
    candidate := ← expire? scan.cursor.place scan.candidate
    outer := ← scan.outer.mapM (expire? scan.cursor.place) }

/-- Gives up the candidate inside the innermost bracket. -/
def release? (scan : Scan) : Option Scan :=
  if scan.candidate.any (·.required) then none else some { scan with candidate := none }

/-- Makes the place a candidate, if a key may begin here. -/
def propose? (scan : Scan) : Option Scan := do
  if scan.keyAllowed then
    let required := !scan.inFlow && scan.columns.head? == some scan.column
    return { ← scan.release? with
      candidate := some ⟨scan.cursor.place, scan.tokens.size, required⟩ }
  else return scan

/-- Begins a collection in a column, before the token of this number, unless one is open there or
deeper. -/
def indent (scan : Scan) (column index : Nat) (token : Token) : Scan :=
  if scan.inFlow || scan.columns.head?.any (column ≤ ·) then scan
  else { scan with
    columns := column :: scan.columns
    tokens := scan.tokens.insertIdxIfInBounds index token }

/-- Ends the collections by indentation whose column is not one that `stays`. -/
def outdent (scan : Scan) (stays : Nat → Bool) : Scan :=
  if scan.inFlow then scan
  else
    let ended := scan.columns.takeWhile (!stays ·)
    { scan with
      columns := scan.columns.drop ended.length
      tokens := scan.tokens ++ Array.replicate ended.length .blockEnd }

def marker? (scan : Scan) (token : Token) : Option Scan := do
  let scan ← (scan.outdent fun _ => false).release?
  return { scan with keyAllowed := false }.emit token 3

/-- Takes an opening bracket. What it opens may be a key. -/
def open? (scan : Scan) (token : Token) : Option Scan := do
  let scan ← scan.propose?
  return { scan with
    candidate := none, outer := scan.candidate :: scan.outer, keyAllowed := true }.emit token 1

def close? (scan : Scan) (token : Token) : Option Scan := do
  let scan ← scan.release?
  return { scan with
    candidate := scan.outer.head?.join, outer := scan.outer.tail, keyAllowed := false }.emit token 1

def comma? (scan : Scan) : Option Scan := do
  return { ← scan.release? with keyAllowed := true }.emit .comma 1

def item? (scan : Scan) : Option Scan :=
  if scan.inFlow || scan.keyAllowed then do
    let scan ← (scan.indent scan.column scan.tokens.size .sequenceStart).release?
    return { scan with keyAllowed := true }.emit .item 1
  else none

/-- Takes the mark of a key. -/
def key? (scan : Scan) : Option Scan :=
  if scan.inFlow || scan.keyAllowed then do
    let scan ← (scan.indent scan.column scan.tokens.size .mappingStart).release?
    return { scan with keyAllowed := !scan.inFlow }.emit .key 1
  else none

/-- Takes the colon of a value. The candidate turns out to be its key. -/
def value? (scan : Scan) : Option Scan :=
  match scan.candidate with
  | some key =>
      let keyed := { scan with
        tokens := scan.tokens.insertIdxIfInBounds key.index .key
        candidate := none
        keyAllowed := false }
      some ((keyed.indent key.place.column key.index .mappingStart).emit .value 1)
  | none =>
      if scan.inFlow then some ({ scan with keyAllowed := false }.emit .value 1)
      else if scan.keyAllowed then
        some ((scan.indent scan.column scan.tokens.size .mappingStart).emit .value 1)
      else none

/-- Takes a scalar. A key may begin after a plain one that reaches the end of its line. -/
def scalar? (scan : Scan) : Option Scan := do
  let scan ← scan.propose?
  let place := scan.cursor.place
  let (plain, scanned) ← match scan.cursor.rest with
    | '\'' :: rest => (scanSingle .nothing (place.after '\'') rest).map (false, ·)
    | '"' :: rest => (scanDouble (.gap .nothing) (place.after '"') rest).map (false, ·)
    | rest =>
        if startsPlain scan.inFlow rest then
          let indent := (scan.columns.head?.map (· + 1)).getD 0
          (scanPlain scan.inFlow indent .nothing place rest).map (true, ·)
        else none
  return { scan with
    cursor := scanned.stop
    tokens := scan.tokens.push (.scalar plain (String.ofList scanned.text))
    keyAllowed := scanned.broken }

/-- Takes the token that begins at the place. -/
def token? (scan : Scan) : Option Scan :=
  match scan.cursor.rest with
  | [] => none
  | c :: rest =>
      let marked := scan.inFlow || atGap rest
      if scan.column == 0 && atMarker (c :: rest) then
        scan.marker? (if c == '-' then .documentStart else .documentEnd)
      else if c == '[' then scan.open? .bracketOpen
      else if c == '\x7b' then scan.open? .braceOpen
      else if c == ']' then scan.close? .bracketClose
      else if c == '\x7d' then scan.close? .braceClose
      else if c == ',' then scan.comma?
      else if c == '-' && atGap rest then scan.item?
      else if c == '?' && marked then scan.key?
      else if c == ':' && marked then scan.value?
      else scan.scalar?

/-- The tokens of a text that has been used up. -/
def finish? (scan : Scan) : Option (Array Token) := do
  return (← (scan.outdent fun _ => false).release?).tokens

/-- The tokens up to the end of the text; every one but the last takes a character at least. -/
def run? : (fuel : Nat) → Scan → Option (Array Token)
  | 0, _ => none
  | fuel + 1, scan => do
      let scan ← scan.skip.expireAll?
      if scan.cursor.rest.isEmpty then scan.finish?
      else run? fuel (← (scan.outdent (· ≤ scan.column)).token?)

end Scan

/-- The tokens of a text, if it can be cut into tokens at all. -/
def tokens? (text : List Char) : Option (List Token) := do
  return (← (Scan.ofText text).run? (text.length + 1)).toList

end BehaviorTree.Yaml
