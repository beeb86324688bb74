/-! # Places in a YAML text

A text is read from place to place. A place knows its line and column, since indentation carries
meaning, and its distance from the start in bytes, since a key may not be long. -/

namespace BehaviorTree.Yaml

def isBreak (c : Char) : Bool := c == '\n' || c == '\u2028' || c == '\u2029'

/-- Whether `c` is a blank inside a line. -/
def isBlank (c : Char) : Bool := c == ' ' || c == '\t'

/-- Whether a blank, a line break or the end stands at the front of a text. -/
def atGap (text : List Char) : Bool := text.head?.all fun c => isBlank c || isBreak c

/-- Whether the marker of a document's start or end stands at the front of a text. -/
def atMarker (text : List Char) : Bool :=
  (['-', '-', '-'].isPrefixOf text || ['.', '.', '.'].isPrefixOf text) && atGap (text.drop 3)

/-- Makes every line end the same way. -/
def unifyBreaks : List Char → List Char
  | [] => []
  | '\r' :: '\n' :: rest => '\n' :: unifyBreaks rest
  | '\r' :: rest => '\n' :: unifyBreaks rest
  | '\u0085' :: rest => '\n' :: unifyBreaks rest
  | c :: rest => c :: unifyBreaks rest

/-- Whether a text may hold `c`. -/
def isPrintable (c : Char) : Bool :=
  let n := c.toNat
  n == 0x9 || n == 0xA || n == 0xD || (0x20 ≤ n && n ≤ 0x7E) || n == 0x85 ||
    (0xA0 ≤ n && n ≤ 0xD7FF) || (0xE000 ≤ n && n ≤ 0xFFFD) || 0x10000 ≤ n

/-- A line and a column, both from 0, and the number of bytes before them. -/
structure Place where
  line : Nat
  column : Nat
  offset : Nat

def Place.after (place : Place) (c : Char) : Place :=
  let offset := place.offset + c.utf8Size
  if isBreak c then ⟨place.line + 1, 0, offset⟩ else ⟨place.line, place.column + 1, offset⟩

/-- A place in a text, and what follows it. -/
structure Cursor where
  place : Place
  rest : List Char

namespace Cursor

def ofText (text : List Char) : Cursor := ⟨⟨0, 0, 0⟩, text⟩

def advance : (n : Nat) → Cursor → Cursor
  | n + 1, ⟨place, c :: rest⟩ => advance n ⟨place.after c, rest⟩
  | _, cursor => cursor

/-- The next place at which something is written. Blanks, line breaks and comments are passed over,
and a byte order mark at the front of a line. Tabs are passed over on the first line when `tabs`,
and on later lines inside brackets only. -/
def afterGap (flow : Bool) : (tabs comment : Bool) → Place → List Char → Cursor
  | _, _, place, [] => ⟨place, []⟩
  | tabs, comment, place, c :: rest =>
      if isBreak c then afterGap flow flow false (place.after c) rest
      else if comment || c == '#' then afterGap flow tabs true (place.after c) rest
      else if c == ' ' || (c == '\t' && tabs) || (c == '\uFEFF' && place.column == 0) then
        afterGap flow tabs false (place.after c) rest
      else ⟨place, c :: rest⟩

/-- The next place at which something is written. -/
def skip (flow tabs : Bool) (cursor : Cursor) : Cursor :=
  afterGap flow tabs false cursor.place cursor.rest

end Cursor

end BehaviorTree.Yaml
