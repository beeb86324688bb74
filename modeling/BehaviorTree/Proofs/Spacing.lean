import BehaviorTree.Json.Reader
import BehaviorTree.Json.Writer

/-! # Spaces in JSON texts

The compact text of a value and the laid-out one are the same but for the spaces in front of items,
fields and closing brackets and after colons. A `Spacing` says what stands there; both texts are
instances of one, and what is shown of every spacing holds of both. -/

namespace BehaviorTree.Json

/-- The spaces of a text. -/
structure Spacing where
  /-- What stands before an item or a closing bracket on a level. -/
  before : Nat → List Char
  /-- What stands between a colon and the value. -/
  afterColon : List Char
  space_before : ∀ level, ∀ c ∈ before level, isSpace c = true
  space_afterColon : ∀ c ∈ afterColon, isSpace c = true

namespace Spacing

def tight : Spacing where
  before _ := []
  afterColon := []
  space_before _ _ h := absurd h List.not_mem_nil
  space_afterColon _ h := absurd h List.not_mem_nil

/-- A line for every item, and a space after the colon. -/
def lines : Spacing where
  before := newLine
  afterColon := [' ']
  space_before level c h := by
    rcases List.mem_cons.1 h with rfl | h
    · rfl
    · rw [List.eq_of_mem_replicate h]
      rfl
  space_afterColon c h := by
    rw [List.mem_singleton.1 h]
    rfl

variable (spacing : Spacing) (level : Nat)

/-- Items or fields on a level after the first one, each after a comma, and the closing bracket. -/
def more (close : Char) (parts : List (List Char)) : List Char :=
  parts.flatMap (fun part => ',' :: (spacing.before (level + 1) ++ part)) ++
    (spacing.before level ++ [close])

/-- Items or fields on a level between brackets. -/
def enclosed (opening close : Char) : List (List Char) → List Char
  | [] => [opening, close]
  | part :: rest =>
      opening :: (spacing.before (level + 1) ++ (part ++ spacing.more level close rest))

/-- A field with the text of its value. -/
def field (name : String) (value : List Char) : List Char :=
  writeString name ++ ':' :: (spacing.afterColon ++ value)

mutual

/-- The text of a value on a level. -/
def text (level : Nat) : Json → List Char
  | .null => ['n', 'u', 'l', 'l']
  | .bool true => ['t', 'r', 'u', 'e']
  | .bool false => ['f', 'a', 'l', 's', 'e']
  | .integer n => writeInt n
  | .float x => writeFloat x
  | .string s => writeString s
  | .array items => spacing.enclosed level '[' ']' (itemTexts (level + 1) items)
  | .object fields => spacing.enclosed level '\x7b' '\x7d' (fieldTexts (level + 1) fields)
  | .illFormed => ['n', 'u', 'l', 'l']

def itemTexts (level : Nat) : List Json → List (List Char)
  | [] => []
  | item :: rest => text level item :: itemTexts level rest

def fieldTexts (level : Nat) : List (String × Json) → List (List Char)
  | [] => []
  | (name, value) :: rest =>
      spacing.field name (text level value) :: fieldTexts level rest

end

variable {spacing level}

theorem itemTexts_eq_map (items : List Json) :
    spacing.itemTexts level items = items.map (spacing.text level) := by
  induction items with
  | nil => rfl
  | cons item rest ih => rw [itemTexts, ih, List.map_cons]

theorem fieldTexts_eq_map (fields : List (String × Json)) : spacing.fieldTexts level fields =
    fields.map fun entry => spacing.field entry.1 (spacing.text level entry.2) := by
  induction fields with
  | nil => rfl
  | cons entry rest ih => rw [fieldTexts, ih, List.map_cons]

theorem more_nil (close : Char) : spacing.more level close [] = spacing.before level ++ [close] :=
  rfl

theorem more_cons (close : Char) (part : List Char) (rest : List (List Char)) :
    spacing.more level close (part :: rest) =
      ',' :: (spacing.before (level + 1) ++ (part ++ spacing.more level close rest)) := by
  simp [more]

end Spacing

/-! ## The two texts of a value -/

mutual

theorem write_eq : ∀ (json : Json) (level : Nat), json.write = Spacing.tight.text level json
  | .null, _ => rfl
  | .bool true, _ => rfl
  | .bool false, _ => rfl
  | .integer _, _ => rfl
  | .float _, _ => rfl
  | .string _, _ => rfl
  | .array [], _ => rfl
  | .array (item :: rest), level => by
      rw [write, write_eq item (level + 1), writeItems_eq rest level]
      rfl
  | .object [], _ => rfl
  | .object ((name, value) :: rest), level => by
      rw [write, write_eq value (level + 1), writeFields_eq rest level, Spacing.text,
        Spacing.fieldTexts, Spacing.enclosed, Spacing.field]
      simp [Spacing.tight]
  | .illFormed, _ => rfl

theorem writeItems_eq : ∀ (items : List Json) (level : Nat),
    writeItems items = Spacing.tight.more level ']' (Spacing.tight.itemTexts (level + 1) items)
  | [], _ => rfl
  | item :: rest, level => by
      rw [writeItems, write_eq item (level + 1), writeItems_eq rest level, Spacing.itemTexts,
        Spacing.more_cons]
      rfl

theorem writeFields_eq : ∀ (fields : List (String × Json)) (level : Nat),
    writeFields fields =
      Spacing.tight.more level '\x7d' (Spacing.tight.fieldTexts (level + 1) fields)
  | [], _ => rfl
  | (name, value) :: rest, level => by
      rw [writeFields, write_eq value (level + 1), writeFields_eq rest level, Spacing.fieldTexts,
        Spacing.more_cons, Spacing.field]
      simp [Spacing.tight]

end

mutual

theorem layout_eq : ∀ (json : Json) (level : Nat), json.layout level = Spacing.lines.text level json
  | .null, _ => rfl
  | .bool true, _ => rfl
  | .bool false, _ => rfl
  | .integer _, _ => rfl
  | .float _, _ => rfl
  | .string _, _ => rfl
  | .array [], _ => rfl
  | .array (item :: rest), level => by
      rw [layout, layout_eq item (level + 1), layoutItems_eq rest level, Spacing.text,
        Spacing.itemTexts, Spacing.enclosed, List.append_assoc]
      rfl
  | .object [], _ => rfl
  | .object ((name, value) :: rest), level => by
      rw [layout, layout_eq value (level + 1), layoutFields_eq rest level, Spacing.text,
        Spacing.fieldTexts, Spacing.enclosed, Spacing.field]
      simp [Spacing.lines]
  | .illFormed, _ => rfl

theorem layoutItems_eq : ∀ (items : List Json) (level : Nat), layoutItems level items =
    Spacing.lines.more level ']' (Spacing.lines.itemTexts (level + 1) items)
  | [], _ => rfl
  | item :: rest, level => by
      rw [layoutItems, layout_eq item (level + 1), layoutItems_eq rest level, Spacing.itemTexts,
        Spacing.more_cons, List.append_assoc]
      rfl

theorem layoutFields_eq : ∀ (fields : List (String × Json)) (level : Nat),
    layoutFields level fields =
      Spacing.lines.more level '\x7d' (Spacing.lines.fieldTexts (level + 1) fields)
  | [], _ => rfl
  | (name, value) :: rest, level => by
      rw [layoutFields, layout_eq value (level + 1), layoutFields_eq rest level,
        Spacing.fieldTexts, Spacing.more_cons, Spacing.field]
      simp [Spacing.lines]

end

end BehaviorTree.Json
