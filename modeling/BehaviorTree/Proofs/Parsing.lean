import BehaviorTree.Proofs.Numerals
import BehaviorTree.Proofs.Spacing
import Mathlib.Data.List.DropRight
import Mathlib.Data.List.Forall2
import Mathlib.Data.List.TakeDrop

/-! # Reading what was written

A text is read back part by part. Each part is shown to be read wherever it stands, with spaces in
front of it and something behind it that no number goes on with; arrays and objects pass this on
from their parts to the whole. So both texts of a value are read as this value, unless it holds
floating-point numbers, which are not always read as they were. -/

namespace BehaviorTree.Json

/-! ## Spaces -/

theorem skipSpace_append {gap text : List Char} (h : ∀ c ∈ gap, isSpace c = true) :
    skipSpace (gap ++ text) = skipSpace text := by
  rw [skipSpace, List.dropWhile_append_of_pos h, skipSpace]

theorem skipSpace_cons {c : Char} {text : List Char} (h : isSpace c = false) :
    skipSpace (c :: text) = c :: text :=
  List.dropWhile_cons_of_neg (by rw [h]; decide)

/-! ## Texts -/

/-- The piece that a character is read as: control characters without a letter are spelled by their
numbers. -/
def pieceOf (c : Char) : Piece :=
  if shortEscapes.lookup c = none ∧ c.toNat < 0x20 then .unit c.toNat else .char c

theorem number?_control : ∀ n < 0x20,
    Text.number? 16 ['0', '0', Nat.digitChar (n / 16), Nat.digitChar (n % 16)] = some n := by
  decide

theorem unescape?_letter {c letter : Char} (h : shortEscapes.lookup c = some letter) :
    letter ≠ 'u' ∧ unescape? letter = some c := by
  obtain ⟨before, after, hsplit, -⟩ := List.lookup_eq_some_iff.1 h
  have hletters : ∀ escape ∈ shortEscapes,
      escape.2 ≠ 'u' ∧ unescape? escape.2 = some escape.1 := by
    decide
  exact hletters (c, letter) (by simp [hsplit])

/-- What a character is spelled by is read as its piece. -/
theorem readPieces_escapeChar (c : Char) (rest : List Char) :
    readPieces (escapeChar c ++ rest) =
      (readPieces rest).map fun (pieces, rest) => (pieceOf c :: pieces, rest) := by
  unfold escapeChar pieceOf
  cases h : shortEscapes.lookup c with
  | some letter =>
      obtain ⟨hne, hunescape⟩ := unescape?_letter h
      have hletter : ¬ (some letter = none ∧ c.toNat < 0x20) := fun h => nomatch h.1
      rw [if_neg hletter, List.cons_append, List.cons_append, List.nil_append, readPieces,
        hunescape]
      · cases readPieces rest <;> rfl
      · intro _ _ _ _ _ hu
        exact absurd hu hne
  | none =>
      dsimp only
      by_cases hcontrol : c.toNat < 0x20
      · rw [if_pos hcontrol, if_pos ⟨rfl, hcontrol⟩]
        simp only [List.cons_append, List.nil_append, readPieces, number?_control _ hcontrol]
        cases readPieces rest <;> rfl
      · have hquote : c ≠ '"' := by
          rintro rfl
          cases h
        have hbackslash : c ≠ '\\' := by
          rintro rfl
          cases h
        rw [if_neg hcontrol, if_neg fun h => hcontrol h.2, List.cons_append, List.nil_append,
          readPieces, if_neg hcontrol]
        · cases readPieces rest <;> rfl
        · exact hquote
        · intro _ _ _ _ _ hc
          exact absurd hc hbackslash
        · intro _ _ hc
          exact absurd hc hbackslash

theorem readPieces_flatMap (chars rest : List Char) :
    readPieces (chars.flatMap escapeChar ++ '"' :: rest) = some (chars.map pieceOf, rest) := by
  induction chars with
  | nil => rw [List.flatMap_nil, List.nil_append, readPieces, List.map_nil]
  | cons c chars ih =>
      rw [List.flatMap_cons, List.append_assoc, readPieces_escapeChar, ih]
      rfl

/-- The pieces of characters are joined to the characters: no number of one is half a pair. -/
theorem joinPieces_map (chars : List Char) : joinPieces (chars.map pieceOf) = some chars := by
  induction chars with
  | nil => rfl
  | cons c chars ih =>
      rw [List.map_cons, pieceOf]
      split
      · rename_i h
        rw [joinPieces.eq_def]
        dsimp only
        rw [if_neg (by omega), if_neg (by omega), ih, Char.ofNat_toNat, Option.map_some]
      · rw [joinPieces, ih, Option.map_some]

/-- A written text is read back, and what follows it is left. -/
theorem readText_flatMap (s : String) (rest : List Char) :
    readText (s.toList.flatMap escapeChar ++ '"' :: rest) = some (some s, rest) := by
  rw [readText, readPieces_flatMap]
  show some ((joinPieces (s.toList.map pieceOf)).map String.ofList, rest) = _
  rw [joinPieces_map, Option.map_some, String.ofList_toList]

theorem writeString_append (s : String) (rest : List Char) :
    writeString s ++ rest = '"' :: (s.toList.flatMap escapeChar ++ '"' :: rest) := by
  simp [writeString]

/-! ## Integers -/

/-- Whether `c` occurs in numbers. -/
def isNumeral (c : Char) : Bool :=
  c.isDigit || c == '-' || c == '+' || c == '.' || c == 'e' || c == 'E'

/-- A number does not go on with this text. -/
def Stops (text : List Char) : Prop := ∀ c ∈ text.head?, isNumeral c = false

theorem stops_nil : Stops [] := by
  intro c h
  cases h

theorem stops_cons {c : Char} {text : List Char} (h : isNumeral c = false) : Stops (c :: text) := by
  intro d hd
  rwa [← Option.some.inj hd]

theorem isNumeral_eq_false_of_isSpace {c : Char} (h : isSpace c = true) : isNumeral c = false := by
  simp only [isSpace, Bool.or_eq_true, beq_iff_eq] at h
  rcases h with ((rfl | rfl) | rfl) | rfl <;> decide

/-- Characters of a kind end where one of another kind follows. -/
theorem span_append {p : Char → Bool} {front text : List Char} (hfront : ∀ c ∈ front, p c = true)
    (htext : ∀ c ∈ text.head?, p c = false) : (front ++ text).span p = (front, text) := by
  have hnone : text.takeWhile p = [] ∧ text.dropWhile p = text := by
    cases text with
    | nil => exact ⟨rfl, rfl⟩
    | cons c text =>
        have hc : ¬ p c = true := by
          rw [htext c rfl]
          decide
        exact ⟨List.takeWhile_cons_of_neg hc, List.dropWhile_cons_of_neg hc⟩
  rw [List.span_eq_takeWhile_dropWhile, List.takeWhile_append_of_pos hfront,
    List.dropWhile_append_of_pos hfront, hnone.1, hnone.2, List.append_nil]

theorem eq_of_append_eq {p : Char → Bool} {front front' text text' : List Char}
    (h : front ++ text = front' ++ text') (hfront : ∀ c ∈ front, p c = true)
    (hfront' : ∀ c ∈ front', p c = true) (htext : ∀ c ∈ text.head?, p c = false)
    (htext' : ∀ c ∈ text'.head?, p c = false) : front = front' ∧ text = text' := by
  rw [← Prod.mk.injEq, ← span_append hfront htext, h, span_append hfront' htext']

theorem Stops.isDigit_eq_false {text : List Char} (h : Stops text) :
    ∀ c ∈ text.head?, c.isDigit = false := by
  intro c hc
  have hnumeral := h c hc
  simp only [isNumeral, Bool.or_eq_false_iff] at hnumeral
  exact hnumeral.1.1.1.1.1

theorem readFraction_of_stops {text : List Char} (h : Stops text) :
    readFraction text = some ([], text) := by
  rw [readFraction.eq_def]
  split
  · cases h '.' rfl
  · rfl

theorem readExponent_of_stops {text : List Char} (h : Stops text) :
    readExponent text = some (none, text) := by
  cases text with
  | nil => rfl
  | cons c text =>
      rw [readExponent, if_neg]
      rintro (rfl | rfl)
      · cases h 'e' rfl
      · cases h 'E' rfl

theorem head?_toDigits (n : Nat) (h : 0 < n) : (Nat.toDigits 10 n).head? ≠ some '0' := by
  induction n using Nat.strongRecOn with
  | ind n ih =>
      by_cases hsmall : n < 10
      · rw [Nat.toDigits_of_lt_base hsmall]
        have hdigits : ∀ n < 10, 0 < n → [Nat.digitChar n].head? ≠ some '0' := by decide
        exact hdigits n hsmall h
      · rw [Nat.toDigits_of_base_le (by decide) (by omega)]
        have hne : Nat.toDigits 10 (n / 10) ≠ [] := Nat.toDigits_ne_nil
        rw [List.head?_append_of_ne_nil _ hne]
        exact ih (n / 10) (by omega) (by omega)

/-- The digits of a number start with a zero only for zero. -/
theorem toDigits_ne_zero_cons (n : Nat) (c : Char) (rest : List Char) :
    Nat.toDigits 10 n ≠ '0' :: c :: rest := by
  intro h
  by_cases hn : 0 < n
  · exact head?_toDigits n hn (by rw [h]; rfl)
  · obtain rfl : n = 0 := by omega
    cases h

theorem readMagnitude_toDigits (negative : Bool) {n : Nat} {text : List Char}
    (hfits : if negative then 0 < n ∧ n ≤ Nat.pow 2 63 else n < Nat.pow 2 64)
    (htext : Stops text) : readMagnitude negative (Nat.toDigits 10 n ++ text) =
      some (.integer (if negative then -n else n), text) := by
  have hdigits : ∀ c ∈ Nat.toDigits 10 n, c.isDigit = true := fun c =>
    Text.isDigit_of_mem_toDigits
  unfold readMagnitude
  rw [span_append hdigits htext.isDigit_eq_false]
  dsimp only
  rw [readFraction_of_stops htext, Option.bind_eq_bind, Option.bind_some]
  dsimp only
  rw [readExponent_of_stops htext, Option.bind_eq_bind, Option.bind_some]
  dsimp only
  rw [Nat.ofDigitChars_ten_toDigits]
  split
  · rename_i hnil
    exact absurd hnil Nat.toDigits_ne_nil
  · rename_i hzero
    exact absurd hzero (toDigits_ne_zero_cons n _ _)
  · rw [if_pos ⟨rfl, rfl, hfits⟩]
    rfl

/-! ## Values -/

/-- A value whose text tells it exactly: it has no floating-point number, and its integers are those
of 64 bits, unsigned or behind a minus sign. -/
inductive Exact : Json → Prop where
  | null : Exact .null
  | bool (b : Bool) : Exact (.bool b)
  | integer {n : Int} (low : -0x8000000000000000 ≤ n) (high : n ≤ 0xffffffffffffffff) :
      Exact (.integer n)
  | string (s : String) : Exact (.string s)
  | array {items : List Json} (items_exact : ∀ item ∈ items, Exact item) : Exact (.array items)
  | object {fields : List (String × Json)} (values_exact : ∀ entry ∈ fields, Exact entry.2) :
      Exact (.object fields)

/-- A value that holds no other values. -/
def IsAtom : Json → Prop
  | .array _ => False
  | .object _ => False
  | _ => True

/-- A reader reads a part as `a` wherever it stands: spaces in front of it are dropped, and what
follows it is left. -/
def Reads {α : Type} (read : List Char → Option (α × List Char)) (part : List Char) (a : α) :
    Prop :=
  ∀ gap rest : List Char, (∀ c ∈ gap, isSpace c = true) → Stops rest →
    read (gap ++ (part ++ rest)) = some (a, rest)

/-- The text of a value is read as another value: a floating-point number as whatever its own text
is read as, and everything around it as it was. Items and fields stand in pairs of what is written
and what is read. -/
inductive ReadAs : Json → Json → Prop where
  | null : ReadAs .null .null
  | bool (b : Bool) : ReadAs (.bool b) (.bool b)
  | integer {n : Int} (low : -0x8000000000000000 ≤ n) (high : n ≤ 0xffffffffffffffff) :
      ReadAs (.integer n) (.integer n)
  | float {x : Binary64} {found : Json} (atom : found.IsAtom)
      (reads : ∀ fuel, Reads (readValue (fuel + 1)) (writeFloat x) found) : ReadAs (.float x) found
  | string (s : String) : ReadAs (.string s) (.string s)
  | array {items : List (Json × Json)} (items_readAs : ∀ item ∈ items, ReadAs item.1 item.2) :
      ReadAs (.array (items.map (·.1))) (.array (items.map (·.2)))
  | object {fields : List (String × Json × Json)}
      (values_readAs : ∀ field ∈ fields, ReadAs field.2.1 field.2.2) :
      ReadAs (.object (fields.map fun field => (field.1, field.2.1)))
        (.object (fields.map fun field => (field.1, field.2.2)))

theorem Exact.readAs {json : Json} (h : Exact json) : ReadAs json json := by
  induction h with
  | null => exact .null
  | bool b => exact .bool b
  | integer low high => exact .integer low high
  | string s => exact .string s
  | @array items _ ih =>
      have hpairs := @ReadAs.array (items.map fun item => (item, item)) (List.forall_mem_map.2 ih)
      simpa only [List.map_map, Function.comp_def, List.map_id'] using hpairs
  | @object fields _ ih =>
      have hpairs := @ReadAs.object (fields.map fun field => (field.1, field.2, field.2))
        (List.forall_mem_map.2 ih)
      simpa only [List.map_map, Function.comp_def, List.map_id'] using hpairs

section Atoms

variable {fuel : Nat}

theorem skipSpace_gap {c : Char} {gap rest : List Char} (hgap : ∀ c ∈ gap, isSpace c = true)
    (hc : isSpace c = false) : skipSpace (gap ++ c :: rest) = c :: rest := by
  rw [skipSpace_append hgap, skipSpace_cons hc]

theorem isSpace_eq_false_of_isDigit {c : Char} (h : c.isDigit = true) : isSpace c = false := by
  simp only [isSpace, Bool.or_eq_false_iff, beq_eq_false_iff_ne, ne_eq]
  refine ⟨⟨⟨?_, ?_⟩, ?_⟩, ?_⟩ <;> rintro rfl <;> exact absurd h (by decide)

theorem reads_null : Reads (readValue (fuel + 1)) ['n', 'u', 'l', 'l'] .null := by
  intro gap rest hgap _
  rw [readValue, List.cons_append, skipSpace_gap hgap (by decide)]
  rfl

theorem reads_true : Reads (readValue (fuel + 1)) ['t', 'r', 'u', 'e'] (.bool true) := by
  intro gap rest hgap _
  rw [readValue, List.cons_append, skipSpace_gap hgap (by decide)]
  rfl

theorem reads_false : Reads (readValue (fuel + 1)) ['f', 'a', 'l', 's', 'e'] (.bool false) := by
  intro gap rest hgap _
  rw [readValue, List.cons_append, skipSpace_gap hgap (by decide)]
  rfl

theorem reads_writeString (s : String) :
    Reads (readValue (fuel + 1)) (writeString s) (.string s) := by
  intro gap rest hgap _
  rw [readValue, writeString_append, skipSpace_gap hgap (by decide)]
  show (readText _ >>= _) = _
  rw [readText_flatMap]
  rfl

/-- What starts with a digit is read as a number. -/
theorem readValue_of_digit {c : Char} {gap rest : List Char} (hgap : ∀ c ∈ gap, isSpace c = true)
    (hc : c.isDigit = true) :
    readValue (fuel + 1) (gap ++ c :: rest) = readMagnitude false (c :: rest) := by
  have hne : ∀ d : Char, d.isDigit = false → c ≠ d := by
    rintro d hd rfl
    rw [hc] at hd
    cases hd
  rw [readValue.eq_def]
  dsimp only
  rw [skipSpace_gap hgap (isSpace_eq_false_of_isDigit hc)]
  split
  case h_8 => rfl
  all_goals
    rename_i heq
    exact absurd (List.cons.inj heq).1 (hne _ (by decide))

theorem reads_writeInt {n : Int} (hlow : -0x8000000000000000 ≤ n) (hhigh : n ≤ 0xffffffffffffffff) :
    Reads (readValue (fuel + 1)) (writeInt n) (.integer n) := by
  intro gap rest hgap hrest
  have hhalf : Nat.pow 2 63 = 0x8000000000000000 := by decide
  have hwhole : Nat.pow 2 64 = 0x10000000000000000 := by decide
  unfold writeInt
  by_cases hn : n < 0
  · have hread := readMagnitude_toDigits true (n := n.natAbs) ⟨by omega, by omega⟩ hrest
    rw [if_pos hn, List.cons_append, readValue, skipSpace_gap hgap (by decide)]
    show readMagnitude true _ = _
    rw [hread, if_pos rfl]
    congr 3
    omega
  · have hread := readMagnitude_toDigits false (n := n.natAbs)
      (show n.natAbs < Nat.pow 2 64 by omega) hrest
    rw [if_neg hn]
    cases hdigits : Nat.toDigits 10 n.natAbs with
    | nil => exact absurd hdigits Nat.toDigits_ne_nil
    | cons c digits =>
        have hc : c.isDigit = true :=
          Text.isDigit_of_mem_toDigits (hdigits ▸ List.mem_cons_self)
        rw [List.cons_append, readValue_of_digit hgap hc, ← List.cons_append, ← hdigits, hread,
          if_neg (by decide)]
        congr 3
        omega

end Atoms

/-! ## Arrays and objects -/

theorem skipSpace_skipSpace (text : List Char) : skipSpace (skipSpace text) = skipSpace text :=
  List.dropWhile_idempotent ..

section Enclosed

variable {α : Type} {spacing : Spacing} {level fuel : Nat} {close : Char}

/-- After an item stands a comma, or a space, or the closing bracket. -/
theorem stops_more (hclose : isNumeral close = false) (parts : List (List Char))
    (rest : List Char) :
    Stops (spacing.more level close parts ++ rest) := by
  cases parts with
  | nil =>
      rw [Spacing.more_nil]
      cases h : spacing.before level with
      | nil => exact stops_cons hclose
      | cons c gap =>
          have hc : isSpace c = true := spacing.space_before level c (h ▸ List.mem_cons_self)
          exact stops_cons (isNumeral_eq_false_of_isSpace hc)
  | cons part parts => exact stops_cons (by decide)

/-- The items after the first one are read one by one, up to the closing bracket. -/
theorem readMore_more (spacing : Spacing) (level : Nat) {close : Char}
    {read : List Char → Option (α × List Char)} (hclose : isNumeral close = false)
    (hspace : isSpace close = false) (hcomma : close ≠ ',') {parts : List (List Char)}
    {items : List α} (h : List.Forall₂ (Reads read) parts items) (hfuel : parts.length < fuel)
    (rest : List Char) :
    readMore read close fuel (spacing.more level close parts ++ rest) = some (items, rest) := by
  induction h generalizing fuel with
  | nil =>
      obtain ⟨fuel, rfl⟩ := Nat.exists_eq_add_one_of_ne_zero (Nat.ne_of_gt hfuel)
      rw [Spacing.more_nil, readMore, List.append_assoc, List.singleton_append,
        skipSpace_gap (spacing.space_before level) hspace]
      dsimp only
      rw [if_pos rfl]
  | @cons part item parts items hpart hparts ih =>
      obtain ⟨fuel, rfl⟩ := Nat.exists_eq_add_one_of_ne_zero (Nat.ne_zero_of_lt hfuel)
      have hmore := ih (Nat.lt_of_succ_lt_succ hfuel)
      have hitem := hpart (spacing.before (level + 1)) (spacing.more level close parts ++ rest)
        (spacing.space_before _) (stops_more hclose parts rest)
      rw [Spacing.more_cons, readMore, List.cons_append, List.append_assoc, List.append_assoc,
        skipSpace_cons (by decide)]
      dsimp only
      rw [if_neg hcomma.symm, if_pos rfl, hitem]
      show (readMore read close fuel _ >>= _) = _
      rw [hmore]
      rfl

theorem readValue_skipSpace (text : List Char) :
    readValue fuel (skipSpace text) = readValue fuel text := by
  cases fuel with
  | zero => rfl
  | succ fuel => rw [readValue, readValue, skipSpace_skipSpace]

theorem readValue_close (rest : List Char) : readValue fuel (']' :: rest) = none := by
  cases fuel <;> rfl

theorem readValue_array {gap : List Char} (hgap : ∀ c ∈ gap, isSpace c = true) (text : List Char) :
    readValue (fuel + 1) (gap ++ '[' :: text) = match skipSpace text with
      | ']' :: rest => some (.array [], rest)
      | rest => do
          let (item, rest) ← readValue fuel rest
          let (items, rest) ← readMore (readValue fuel) ']' fuel rest
          return (.array (item :: items), rest) := by
  rw [readValue, skipSpace_gap hgap (by decide)]
  rfl

theorem reads_array {parts : List (List Char)} {items : List Json}
    (h : List.Forall₂ (Reads (readValue fuel)) parts items) (hfuel : parts.length ≤ fuel) :
    Reads (readValue (fuel + 1)) (spacing.enclosed level '[' ']' parts) (.array items) := by
  intro gap rest hgap hrest
  cases h with
  | nil =>
      rw [Spacing.enclosed, List.cons_append, readValue_array hgap]
      rfl
  | @cons part item parts items hpart hparts =>
      have hmore := readMore_more spacing level (show isNumeral ']' = false by decide) (by decide)
        (by decide) hparts hfuel rest
      have hitem := hpart (spacing.before (level + 1)) (spacing.more level ']' parts ++ rest)
        (spacing.space_before _) (stops_more (by decide) parts rest)
      rw [Spacing.enclosed, List.cons_append, List.append_assoc, List.append_assoc,
        readValue_array hgap]
      rw [← readValue_skipSpace] at hitem
      -- The first item is no closing bracket, since it is read as a value.
      split
      · rename_i heq
        rw [heq, readValue_close] at hitem
        cases hitem
      · rw [hitem]
        show (readMore _ _ _ _ >>= _) = _
        rw [hmore]
        rfl

/-- A field is read as its name and its value. -/
theorem reads_field {part : List Char} {value : Json} (name : String)
    (h : Reads (readValue fuel) part value) :
    Reads (readField (readValue fuel)) (spacing.field name part) (some name, value) := by
  intro gap rest hgap hrest
  have hvalue := h spacing.afterColon rest spacing.space_afterColon hrest
  rw [readField, Spacing.field, List.append_assoc, List.cons_append, List.append_assoc,
    writeString_append, skipSpace_gap hgap (by decide)]
  show (readText _ >>= _) = _
  rw [readText_flatMap, Option.bind_eq_bind, Option.bind_some]
  dsimp only
  rw [skipSpace_cons (by decide)]
  show (readValue fuel _ >>= _) = _
  rw [hvalue]
  rfl

theorem readField_skipSpace (text : List Char) :
    readField (readValue fuel) (skipSpace text) = readField (readValue fuel) text := by
  rw [readField, readField, skipSpace_skipSpace]

theorem readField_close (rest : List Char) :
    readField (readValue fuel) ('\x7d' :: rest) = none := rfl

/-- What is written item by item is read back item by item. -/
theorem mapM_map_eq_some {α β : Type} {read : β → Option α} {write : α → β} {items : List α}
    (h : ∀ a ∈ items, read (write a) = some a) : (items.map write).mapM read = some items := by
  induction items with
  | nil => rfl
  | cons a rest ih =>
      rw [List.forall_mem_cons] at h
      rw [List.map_cons, List.mapM_cons, h.1, ih h.2]
      rfl

theorem ofFields_some (fields : List (String × Json)) :
    ofFields (fields.map fun entry => (some entry.1, entry.2)) = .object fields := by
  rw [ofFields, mapM_map_eq_some]
  exact fun _ _ => rfl

theorem readValue_object {gap : List Char} (hgap : ∀ c ∈ gap, isSpace c = true) (text : List Char) :
    readValue (fuel + 1) (gap ++ '\x7b' :: text) = match skipSpace text with
      | '\x7d' :: rest => some (.object [], rest)
      | rest => do
          let (field, rest) ← readField (readValue fuel) rest
          let (fields, rest) ← readMore (readField (readValue fuel)) '\x7d' fuel rest
          return (ofFields (field :: fields), rest) := by
  rw [readValue, skipSpace_gap hgap (by decide)]
  rfl

theorem reads_object {parts : List (List Char)} {fields : List (String × Json)}
    (h : List.Forall₂ (Reads (readField (readValue fuel))) parts
      (fields.map fun entry => (some entry.1, entry.2))) (hfuel : parts.length ≤ fuel) :
    Reads (readValue (fuel + 1)) (spacing.enclosed level '\x7b' '\x7d' parts) (.object fields) := by
  intro gap rest hgap hrest
  rw [← ofFields_some]
  generalize (fields.map fun entry => (some entry.1, entry.2)) = fields at h
  cases h with
  | nil =>
      rw [Spacing.enclosed, List.cons_append, readValue_object hgap]
      rfl
  | @cons part field parts fields hpart hparts =>
      have hmore := readMore_more spacing level (show isNumeral '\x7d' = false by decide)
        (by decide) (by decide) hparts hfuel rest
      have hfield := hpart (spacing.before (level + 1)) (spacing.more level '\x7d' parts ++ rest)
        (spacing.space_before _) (stops_more (by decide) parts rest)
      rw [Spacing.enclosed, List.cons_append, List.append_assoc, List.append_assoc,
        readValue_object hgap]
      rw [← readField_skipSpace] at hfield
      split
      · rename_i heq
        rw [heq, readField_close] at hfield
        cases hfield
      · rw [hfield]
        show (readMore _ _ _ _ >>= _) = _
        rw [hmore]
        rfl

end Enclosed

/-! ## Texts of values -/

section Text

variable {spacing : Spacing} {level fuel : Nat} {json found : Json}

/-- Each part is shorter than what encloses it, and there are not more of them than characters. -/
theorem length_enclosed (opening close : Char) (parts : List (List Char)) :
    parts.length < (spacing.enclosed level opening close parts).length ∧
      ∀ part ∈ parts, part.length < (spacing.enclosed level opening close parts).length := by
  have hmore : ∀ parts : List (List Char),
      parts.length < (spacing.more level close parts).length ∧
        ∀ part ∈ parts, part.length < (spacing.more level close parts).length := by
    intro parts
    induction parts with
    | nil => simp [Spacing.more_nil]
    | cons part parts ih =>
        rw [Spacing.more_cons]
        simp only [List.length_cons, List.length_append, List.forall_mem_cons]
        refine ⟨by omega, by omega, fun other hother => ?_⟩
        have hlt := ih.2 other hother
        omega
  cases parts with
  | nil => simp [Spacing.enclosed]
  | cons part parts =>
      obtain ⟨hcount, hparts⟩ := hmore parts
      rw [Spacing.enclosed]
      simp only [List.length_cons, List.length_append, List.forall_mem_cons]
      refine ⟨by omega, by omega, fun other hother => ?_⟩
      have hlt := hparts other hother
      omega

/-- What a text is read as does not depend on its spaces. -/
theorem reads_text (h : ReadAs json found) (hfuel : (spacing.text level json).length ≤ fuel) :
    Reads (readValue (fuel + 1)) (spacing.text level json) found := by
  induction h generalizing level fuel with
  | null => exact reads_null
  | bool b =>
      cases b
      · exact reads_false
      · exact reads_true
  | integer low high => exact reads_writeInt low high
  | float _ reads => exact reads fuel
  | string s => exact reads_writeString s
  | @array items _ ih =>
      rw [Spacing.text, Spacing.itemTexts_eq_map, List.map_map] at hfuel ⊢
      obtain ⟨hcount, hparts⟩ := @length_enclosed spacing level '[' ']'
        (items.map (spacing.text (level + 1) ∘ (·.1)))
      refine reads_array ?_ (by omega)
      rw [List.forall₂_map_left_iff, List.forall₂_map_right_iff, List.forall₂_same]
      intro item hitem
      have hlt := hparts _ (List.mem_map_of_mem hitem)
      rw [Function.comp_apply] at hlt
      obtain ⟨fuel, rfl⟩ := Nat.exists_eq_add_one_of_ne_zero (show fuel ≠ 0 by omega)
      exact ih item hitem (by omega)
  | @object fields _ ih =>
      rw [Spacing.text, Spacing.fieldTexts_eq_map, List.map_map] at hfuel ⊢
      obtain ⟨hcount, hparts⟩ := @length_enclosed spacing level '\x7b' '\x7d'
        (fields.map ((fun field => spacing.field field.1 (spacing.text (level + 1) field.2)) ∘
          fun field => (field.1, field.2.1)))
      refine reads_object ?_ (by omega)
      rw [List.map_map, List.forall₂_map_left_iff, List.forall₂_map_right_iff, List.forall₂_same]
      intro field hfield
      have hlt := hparts _ (List.mem_map_of_mem hfield)
      have hvalue : (spacing.field field.1 (spacing.text (level + 1) field.2.1)).length =
          (writeString field.1).length + (spacing.afterColon.length +
            (spacing.text (level + 1) field.2.1).length + 1) := by
        simp only [Spacing.field, List.length_append, List.length_cons]
      rw [Function.comp_apply, hvalue] at hlt
      obtain ⟨fuel, rfl⟩ := Nat.exists_eq_add_one_of_ne_zero (show fuel ≠ 0 by omega)
      exact reads_field field.1 (ih field hfield (by omega))

/-- A text that is read wherever it stands is read with nothing but spaces behind it. -/
theorem parse_of_reads {text after : List Char} (hafter : ∀ c ∈ after, isSpace c = true)
    (h : Reads (readValue ((text ++ after).length + 1)) text found) :
    parse (String.ofList (text ++ after)) = some found := by
  have hstops : Stops after := fun c hc =>
    isNumeral_eq_false_of_isSpace (hafter c (List.mem_of_mem_head? hc))
  have hread := h [] after (fun _ hc => absurd hc List.not_mem_nil) hstops
  have hnone : skipSpace after = [] := List.dropWhile_eq_nil_iff.2 hafter
  rw [List.nil_append] at hread
  rw [parse, String.toList_ofList]
  show (readValue _ _ >>= _) = _
  rw [hread]
  exact if_pos hnone

/-- The compact text of a value is read as it should be. -/
theorem parse_compact (h : ReadAs json found) : parse json.compact = some found := by
  have hread := @parse_of_reads found (Spacing.tight.text 0 json) []
    (List.forall_mem_nil _) (reads_text h (by rw [List.append_nil]))
  rwa [List.append_nil, ← write_eq] at hread

/-- The laid-out text of a value is read as it should be, and so it is with a line end. -/
theorem parse_pretty (h : ReadAs json found) :
    parse json.pretty = some found ∧ parse (json.pretty ++ "\n") = some found := by
  have hread : ∀ after, (∀ c ∈ after, isSpace c = true) →
      parse (String.ofList (json.layout 0 ++ after)) = some found := by
    intro after hafter
    rw [layout_eq]
    exact parse_of_reads hafter (reads_text h (by rw [List.length_append]; omega))
  constructor
  · rw [pretty, ← List.append_nil (json.layout 0)]
    exact hread [] (List.forall_mem_nil _)
  · rw [pretty, show "\n" = String.ofList ['\n'] from rfl, ← String.ofList_append]
    exact hread ['\n'] (List.forall_mem_singleton.2 rfl)

end Text

end BehaviorTree.Json
