import BehaviorTree.Binary64.Scaling
import BehaviorTree.Json.Basic
import BehaviorTree.Text.Digits

/-! # Reading JSON texts

Each part of the grammar is read off the front of a text and leaves the rest. Nesting is not limited
here; a limit is the business of those who make something of the value. -/

namespace BehaviorTree.Json

/-- Whether `c` may stand between the parts of a JSON text. -/
def isSpace (c : Char) : Bool := c == ' ' || c == '\n' || c == '\r' || c == '\t'

/-- The text from its first character that is no space. -/
def skipSpace (text : List Char) : List Char := text.dropWhile isSpace

/-- The character that a backslash and `letter` stand for. A slash may be escaped too. -/
def unescape? (letter : Char) : Option Char :=
  if letter = '/' then some '/'
  else (shortEscapes.find? (·.2 == letter)).map (·.1)

/-- A piece of a text: a character, or a code unit of 16 bits that is spelled by its number. -/
inductive Piece where
  | char (c : Char)
  | unit (n : Nat)

/-- The pieces up to the closing quote. -/
def readPieces : List Char → Option (List Piece × List Char)
  | [] => none
  | '"' :: rest => some ([], rest)
  | '\\' :: 'u' :: a :: b :: c :: d :: rest => do
      let unit ← Text.number? 16 [a, b, c, d]
      let (pieces, rest) ← readPieces rest
      return (.unit unit :: pieces, rest)
  | '\\' :: c :: rest => do
      let c ← unescape? c
      let (pieces, rest) ← readPieces rest
      return (.char c :: pieces, rest)
  | c :: rest =>
      if c.toNat < 0x20 then none
      else do
        let (pieces, rest) ← readPieces rest
        return (.char c :: pieces, rest)

/-- The characters of a list of pieces. The two halves of a surrogate pair make one character, and
half a pair makes none. -/
def joinPieces : List Piece → Option (List Char)
  | [] => some []
  | .char c :: rest => (joinPieces rest).map (c :: ·)
  | .unit n :: rest =>
      if 0xD800 ≤ n ∧ n ≤ 0xDBFF then
        match rest with
        | .unit m :: rest =>
            if 0xDC00 ≤ m ∧ m ≤ 0xDFFF then
              (joinPieces rest).map
                (Char.ofNat (0x10000 + (n - 0xD800) * 0x400 + (m - 0xDC00)) :: ·)
            else none
        | _ => none
      else if 0xDC00 ≤ n ∧ n ≤ 0xDFFF then none
      else (joinPieces rest).map (Char.ofNat n :: ·)

/-- The text up to the closing quote; `none` inside stands for one with half a surrogate pair. -/
def readText (text : List Char) : Option (Option String × List Char) := do
  let (pieces, rest) ← readPieces text
  return ((joinPieces pieces).map String.ofList, rest)

/-- A fraction: a point and at least one digit. -/
def readFraction : List Char → Option (List Char × List Char)
  | '.' :: rest => match rest.span Char.isDigit with
    | ([], _) => none
    | (digits, rest) => some (digits, rest)
  | rest => some ([], rest)

/-- An exponent: its mark, a sign that may be left out, and at least one digit. -/
def readExponent : List Char → Option (Option Int × List Char)
  | mark :: rest =>
      if mark = 'e' ∨ mark = 'E' then
        let (minus, rest) := Binary64.splitSign rest
        match rest.span Char.isDigit with
        | ([], _) => none
        | (digits, rest) =>
            let n : Int := Nat.ofDigitChars 10 digits 0
            some (some (if minus then -n else n), rest)
      else some (none, mark :: rest)
  | [] => some (none, [])

/-- Appends digits to a significand as long as it fits in 64 bits; the second part is the digits
that are left over. -/
def takeDigits (significand : Nat) : List Char → Nat × List Char
  | [] => (significand, [])
  | digit :: rest =>
      let next := significand * 10 + (digit.toNat - '0'.toNat)
      if next < Nat.pow 2 64 then takeDigits next rest else (significand, digit :: rest)

/-- The floating-point number of these digits, if it is finite. Digits that do not fit in the
significand count as zeros before the point, and not at all after it. -/
def floatOf (negative : Bool) (whole fraction : List Char) (exponent : Int) : Json :=
  let (significand, left) := takeDigits 0 whole
  let (significand, cut) := takeDigits significand fraction
  let places : Int := fraction.length - cut.length
  match Binary64.ofSignificand? significand (left.length - places + exponent) with
  | some x => .float (.ofMagnitude negative x.magnitude)
  | none => .illFormed

/-- A number without its sign. No zero stands before other digits. What is no integer of 64 bits,
unsigned or behind a minus sign, is a floating-point number; so is minus zero. -/
def readMagnitude (negative : Bool) (text : List Char) : Option (Json × List Char) := do
  let (whole, rest) := text.span Char.isDigit
  let (fraction, rest) ← readFraction rest
  let (exponent, rest) ← readExponent rest
  let n := Nat.ofDigitChars 10 whole 0
  let isInteger := fraction = [] ∧ exponent = none ∧
    if negative then 0 < n ∧ n ≤ Nat.pow 2 63 else n < Nat.pow 2 64
  match whole with
  | [] => none
  | '0' :: _ :: _ => none
  | _ =>
      if isInteger then return (.integer (if negative then -n else n), rest)
      else return (floatOf negative whole fraction (exponent.getD 0), rest)

/-- Items of an array or fields of an object after the first one, each after a comma, up to the
closing bracket. -/
def readMore {α : Type} (readItem : List Char → Option (α × List Char)) (close : Char) :
    (fuel : Nat) → List Char → Option (List α × List Char)
  | 0, _ => none
  | fuel + 1, text => match skipSpace text with
    | [] => none
    | c :: rest =>
        if c = close then some ([], rest)
        else if c = ',' then do
          let (item, rest) ← readItem rest
          let (items, rest) ← readMore readItem close fuel rest
          return (item :: items, rest)
        else none

/-- A field of an object: a name, a colon and a value. -/
def readField (readValue : List Char → Option (Json × List Char)) (text : List Char) :
    Option ((Option String × Json) × List Char) :=
  match skipSpace text with
  | '"' :: rest => do
      let (name, rest) ← readText rest
      match skipSpace rest with
      | ':' :: rest =>
          let (value, rest) ← readValue rest
          return ((name, value), rest)
      | _ => none
  | _ => none

/-- The object of these fields, if all their names are texts. -/
def ofFields (fields : List (Option String × Json)) : Json :=
  match fields.mapM fun (name, value) => name.map (·, value) with
  | some fields => .object fields
  | none => .illFormed

/-- A value; `fuel` bounds its nesting and the number of items on each level. -/
def readValue : (fuel : Nat) → List Char → Option (Json × List Char)
  | 0, _ => none
  | fuel + 1, text => match skipSpace text with
    | 'n' :: 'u' :: 'l' :: 'l' :: rest => some (.null, rest)
    | 't' :: 'r' :: 'u' :: 'e' :: rest => some (.bool true, rest)
    | 'f' :: 'a' :: 'l' :: 's' :: 'e' :: rest => some (.bool false, rest)
    | '"' :: rest => do
        let (text, rest) ← readText rest
        return (match text with | some s => .string s | none => .illFormed, rest)
    | '-' :: rest => readMagnitude true rest
    | '[' :: rest => match skipSpace rest with
      | ']' :: rest => some (.array [], rest)
      | rest => do
          let (item, rest) ← readValue fuel rest
          let (items, rest) ← readMore (readValue fuel) ']' fuel rest
          return (.array (item :: items), rest)
    | '\x7b' :: rest => match skipSpace rest with
      | '\x7d' :: rest => some (.object [], rest)
      | rest => do
          let (field, rest) ← readField (readValue fuel) rest
          let (fields, rest) ← readMore (readField (readValue fuel)) '\x7d' fuel rest
          return (ofFields (field :: fields), rest)
    | rest => readMagnitude false rest

/-- The value that a text spells, with nothing but space around it. -/
def parse (s : String) : Option Json := do
  let text := s.toList
  let (json, rest) ← readValue (text.length + 1) text
  if skipSpace rest = [] then return json else none

end BehaviorTree.Json
