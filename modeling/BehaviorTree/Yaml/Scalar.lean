import BehaviorTree.Text.Digits
import BehaviorTree.Yaml.Cursor

/-! # Scalars of YAML

A scalar is plain or quoted. Inside a scalar a run of blanks on one line is kept, and a run of line
breaks is folded: a single break becomes a space, and of several the first one is dropped. A
document's marker ends a plain scalar and cannot stand in a quoted one. -/

namespace BehaviorTree.Yaml

/-- Whether `c` separates or closes the parts of a bracketed collection. -/
def isFlowMark (c : Char) : Bool := c == ',' || c == '[' || c == ']' || c == '\x7b' || c == '\x7d'

/-- What stands between two visible characters of a scalar: blanks of one line, or line breaks, of
which the first may have been escaped. -/
inductive Gap where
  | blanks (run : List Char)
  | breaks (first : Option Char) (more : List Char)

def Gap.nothing : Gap := .blanks []

/-- The gap after one more blank; blanks after a line break are indentation. -/
def Gap.addBlank (c : Char) : Gap → Gap
  | .blanks run => .blanks (run ++ [c])
  | gap => gap

/-- The gap after one more line break. -/
def Gap.addBreak (c : Char) : Gap → Gap
  | .blanks _ => .breaks (some c) []
  | .breaks first more => .breaks first (more ++ [c])

/-- What a gap contributes to the text. -/
def Gap.folded : Gap → List Char
  | .blanks run => run
  | .breaks (some '\n') [] => [' ']
  | .breaks (some '\n') more => more
  | .breaks (some c) more => c :: more
  | .breaks none more => more

def Gap.isSeen : Gap → Bool
  | .blanks run => !run.isEmpty
  | .breaks .. => true

/-- Whether a gap reaches over the end of a line. -/
def Gap.isBroken : Gap → Bool
  | .blanks _ => false
  | .breaks .. => true

/-- A scalar that has been read: its text, whether it was followed by the end of its line, and the
place after it. -/
structure Scanned where
  text : List Char
  broken : Bool
  stop : Cursor

def Scanned.after (front : List Char) (scanned : Scanned) : Scanned :=
  { scanned with text := front ++ scanned.text }

/-- A plain scalar and the gap after it. A line indented by less than `indent` ends it outside
brackets, and a separator or bracket inside (`flow`). A colon before a gap ends it, and so does a
number sign after one. Tabs cannot stand in for the indentation. -/
def scanPlain (flow : Bool) (indent : Nat) : Gap → Place → List Char → Option Scanned
  | gap, place, [] => some ⟨[], gap.isBroken, ⟨place, []⟩⟩
  | gap, place, c :: rest =>
      if isBlank c then
        if gap.isBroken && c == '\t' && place.column < indent then none
        else scanPlain flow indent (gap.addBlank c) (place.after c) rest
      else if isBreak c then scanPlain flow indent (gap.addBreak c) (place.after c) rest
      else
        let outdented := gap.isBroken && !flow && place.column < indent
        let marked := gap.isBroken && place.column == 0 && atMarker (c :: rest)
        if outdented || marked || (c == '#' && gap.isSeen) || (c == ':' && atGap rest) then
          some ⟨[], gap.isBroken, ⟨place, c :: rest⟩⟩
        else if flow && c == ':' && rest.head?.any (fun d => isFlowMark d || d == '?') then none
        else if flow && isFlowMark c then some ⟨[], gap.isBroken, ⟨place, c :: rest⟩⟩
        else
          (scanPlain flow indent .nothing (place.after c) rest).map (·.after (gap.folded ++ [c]))

/-- Whether a plain scalar can start at the front of a text. -/
def startsPlain (flow : Bool) (text : List Char) : Bool :=
  match text with
  | [] => false
  | c :: rest =>
      if c == '-' then !atGap rest
      else if c == '?' || c == ':' then !flow && !atGap rest
      else !(isBlank c || isBreak c || isFlowMark c || "#&*!|>'\"%@`".toList.contains c)

/-- Whether a document's marker stands in a quoted scalar, at the front of a line. -/
def marksQuoted (gap : Gap) (place : Place) (text : List Char) : Bool :=
  gap.isBroken && place.column == 0 && atMarker text

/-- A scalar between single quotes, after the opening one; a quote in it is written twice. -/
def scanSingle : Gap → Place → List Char → Option Scanned
  | _, _, [] => none
  | gap, place, '\'' :: '\'' :: rest =>
      (scanSingle .nothing ((place.after '\'').after '\'') rest).map
        (·.after (gap.folded ++ ['\'']))
  | gap, place, c :: rest =>
      if c == '\'' then some ⟨gap.folded, false, ⟨place.after c, rest⟩⟩
      else if isBlank c then scanSingle (gap.addBlank c) (place.after c) rest
      else if isBreak c then scanSingle (gap.addBreak c) (place.after c) rest
      else if marksQuoted gap place (c :: rest) then none
      else (scanSingle .nothing (place.after c) rest).map (·.after (gap.folded ++ [c]))

/-- The character that a backslash and `c` stand for between double quotes. -/
def escape? (c : Char) : Option Char :=
  match c with
  | '0' => some '\x00'
  | 'a' => some '\x07'
  | 'b' => some '\x08'
  | 't' => some '\t'
  | '\t' => some '\t'
  | 'n' => some '\n'
  | 'v' => some '\x0b'
  | 'f' => some '\x0c'
  | 'r' => some '\r'
  | 'e' => some '\x1b'
  | ' ' => some ' '
  | '"' => some '"'
  | '/' => some '/'
  | '\\' => some '\\'
  | 'N' => some '\u0085'
  | '_' => some '\u00a0'
  | 'L' => some '\u2028'
  | 'P' => some '\u2029'
  | _ => none

/-- The number of hexadecimal digits that spell a character after a backslash and `c`. -/
def hexWidth? (c : Char) : Option Nat :=
  match c with
  | 'x' => some 2
  | 'u' => some 4
  | 'U' => some 8
  | _ => none

/-- Where a reader stands between double quotes: after a gap, after a backslash, or with digits of a
spelled character still to come. -/
inductive Spot where
  | gap (gap : Gap)
  | escape
  | hex (left : Nat) (value : Nat)

/-- A scalar between double quotes, after the opening one. An escaped line break is dropped together
with the indentation of the next line. -/
def scanDouble : Spot → Place → List Char → Option Scanned
  | _, _, [] => none
  | .escape, place, c :: rest =>
      if isBreak c then scanDouble (.gap (.breaks none [])) (place.after c) rest
      else match hexWidth? c with
        | some width => scanDouble (.hex width 0) (place.after c) rest
        | none => do
            let spelled ← escape? c
            return (← scanDouble (.gap .nothing) (place.after c) rest).after [spelled]
  | .hex left value, place, c :: rest => do
      let value := value * 16 + (← Text.digit? 16 c)
      if 1 < left then scanDouble (.hex (left - 1) value) (place.after c) rest
      else if value.isValidChar then
        return (← scanDouble (.gap .nothing) (place.after c) rest).after [Char.ofNat value]
      else none
  | .gap gap, place, c :: rest =>
      if c == '"' then some ⟨gap.folded, false, ⟨place.after c, rest⟩⟩
      else if isBlank c then scanDouble (.gap (gap.addBlank c)) (place.after c) rest
      else if isBreak c then scanDouble (.gap (gap.addBreak c)) (place.after c) rest
      else if marksQuoted gap place (c :: rest) then none
      else if c == '\\' then
        (scanDouble .escape (place.after c) rest).map (·.after gap.folded)
      else (scanDouble (.gap .nothing) (place.after c) rest).map (·.after (gap.folded ++ [c]))

end BehaviorTree.Yaml
