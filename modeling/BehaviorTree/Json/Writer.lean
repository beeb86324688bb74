import BehaviorTree.Json.Basic
import BehaviorTree.Text.Quoted

/-! # JSON texts

The compact text of a value has no blanks. The laid-out text puts every item and every field on a
line of its own, indented by two spaces for each level, and leaves empty arrays and objects closed.
Texts escape the quote, the backslash and the control characters below the space, and nothing
else. -/

namespace BehaviorTree.Json

/-- How a text spells `c`. -/
def escapeChar (c : Char) : List Char :=
  match shortEscapes.lookup c with
  | some letter => ['\\', letter]
  | none =>
      if c.toNat < 0x20 then
        ['\\', 'u', '0', '0', Nat.digitChar (c.toNat / 16), Nat.digitChar (c.toNat % 16)]
      else [c]

/-- A text between quotes. -/
def writeString (s : String) : List Char :=
  '"' :: s.toList.flatMap escapeChar ++ ['"']

def writeInt (n : Int) : List Char :=
  if n < 0 then '-' :: Nat.toDigits 10 n.natAbs else Nat.toDigits 10 n.natAbs

/-- A number; what is not finite has no spelling in JSON and becomes null. -/
def writeFloat (x : Binary64) : List Char :=
  if x.isFinite then x.scientificText.toList else ['n', 'u', 'l', 'l']

mutual

def write : Json → List Char
  | .null => ['n', 'u', 'l', 'l']
  | .bool true => ['t', 'r', 'u', 'e']
  | .bool false => ['f', 'a', 'l', 's', 'e']
  | .integer n => writeInt n
  | .float x => writeFloat x
  | .string s => writeString s
  | .array [] => ['[', ']']
  | .array (item :: rest) => '[' :: item.write ++ writeItems rest
  | .object [] => ['\x7b', '\x7d']
  | .object ((name, value) :: rest) =>
      '\x7b' :: writeString name ++ ':' :: value.write ++ writeFields rest
  | .illFormed => ['n', 'u', 'l', 'l']

/-- The items of an array after the first one, and its end. -/
def writeItems : List Json → List Char
  | [] => [']']
  | item :: rest => ',' :: item.write ++ writeItems rest

/-- The fields of an object after the first one, and its end. -/
def writeFields : List (String × Json) → List Char
  | [] => ['\x7d']
  | (name, value) :: rest =>
      ',' :: writeString name ++ ':' :: value.write ++ writeFields rest

end

/-- A new line, indented for this level. -/
def newLine (level : Nat) : List Char := '\n' :: List.replicate (2 * level) ' '

mutual

/-- The laid-out text of a value that starts on this level. -/
def layout (level : Nat) : Json → List Char
  | .null => ['n', 'u', 'l', 'l']
  | .bool true => ['t', 'r', 'u', 'e']
  | .bool false => ['f', 'a', 'l', 's', 'e']
  | .integer n => writeInt n
  | .float x => writeFloat x
  | .string s => writeString s
  | .array [] => ['[', ']']
  | .array (item :: rest) =>
      '[' :: newLine (level + 1) ++ item.layout (level + 1) ++ layoutItems level rest
  | .object [] => ['\x7b', '\x7d']
  | .object ((name, value) :: rest) =>
      '\x7b' :: newLine (level + 1) ++ writeString name ++ ':' :: ' ' ::
        value.layout (level + 1) ++ layoutFields level rest
  | .illFormed => ['n', 'u', 'l', 'l']

/-- The items of an array on this level after the first one, and its end. -/
def layoutItems (level : Nat) : List Json → List Char
  | [] => newLine level ++ [']']
  | item :: rest =>
      ',' :: newLine (level + 1) ++ item.layout (level + 1) ++ layoutItems level rest

/-- The fields of an object on this level after the first one, and its end. -/
def layoutFields (level : Nat) : List (String × Json) → List Char
  | [] => newLine level ++ ['\x7d']
  | (name, value) :: rest =>
      ',' :: newLine (level + 1) ++ writeString name ++ ':' :: ' ' ::
        value.layout (level + 1) ++ layoutFields level rest

end

def compact (json : Json) : String := String.ofList json.write

def pretty (json : Json) : String := String.ofList (json.layout 0)

end BehaviorTree.Json
