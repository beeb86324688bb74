import BehaviorTree.Proofs.Numerals
import BehaviorTree.Proofs.Validity

/-! # What is read as an integer

A text is read as an integer when decimal digits are left of it, behind a sign or none, once the
blanks at both ends are gone, and the number that the digits spell is in the range (`Text.Spells`,
`Text.Stripped`). Any number of digits is read exactly, up to both ends of the range. Only a range
with negative numbers has a minus sign. Everything else is refused, and the error has the whole
text. -/

namespace BehaviorTree.Text

/-! ## Spellings of integers -/

/-- The integers that characters spell, with these signs to choose from: decimal digits, at least
one, behind a sign or none. -/
inductive Spells (signs : List Char) : List Char → Int → Prop where
  | bare {digits : List Char} (ne_nil : digits ≠ []) (decimal : ∀ c ∈ digits, c.isDigit = true) :
      Spells signs digits (Nat.ofDigitChars 10 digits 0)
  | plus {digits : List Char} (allowed : '+' ∈ signs) (ne_nil : digits ≠ [])
      (decimal : ∀ c ∈ digits, c.isDigit = true) :
      Spells signs ('+' :: digits) (Nat.ofDigitChars 10 digits 0)
  | minus {digits : List Char} (allowed : '-' ∈ signs) (ne_nil : digits ≠ [])
      (decimal : ∀ c ∈ digits, c.isDigit = true) :
      Spells signs ('-' :: digits) (-(Nat.ofDigitChars 10 digits 0 : Int))

/-- The signs that are read as signs in a range. -/
def IntegerRange.signs (range : IntegerRange) : List Char :=
  if range.least < 0 then ['+', '-'] else ['+']

section Spells

variable {signs digits : List Char} {n : Int}

theorem not_spells_nil : ¬ Spells signs [] n := by
  rintro ⟨ne_nil, -⟩
  exact ne_nil rfl

theorem spells_plus_iff : Spells signs ('+' :: digits) n ↔
    '+' ∈ signs ∧ digits ≠ [] ∧ (∀ c ∈ digits, c.isDigit = true) ∧
      n = Nat.ofDigitChars 10 digits 0 := by
  constructor
  · intro h
    cases h with
    | bare ne_nil decimal => exact absurd (decimal '+' List.mem_cons_self) (by decide)
    | plus allowed ne_nil decimal => exact ⟨allowed, ne_nil, decimal, rfl⟩
  · rintro ⟨allowed, ne_nil, decimal, rfl⟩
    exact .plus allowed ne_nil decimal

theorem spells_minus_iff : Spells signs ('-' :: digits) n ↔
    '-' ∈ signs ∧ digits ≠ [] ∧ (∀ c ∈ digits, c.isDigit = true) ∧
      n = -(Nat.ofDigitChars 10 digits 0 : Int) := by
  constructor
  · intro h
    cases h with
    | bare ne_nil decimal => exact absurd (decimal '-' List.mem_cons_self) (by decide)
    | minus allowed ne_nil decimal => exact ⟨allowed, ne_nil, decimal, rfl⟩
  · rintro ⟨allowed, ne_nil, decimal, rfl⟩
    exact .minus allowed ne_nil decimal

/-- What starts with no sign is digits alone. -/
theorem spells_iff_of_ne_sign (hplus : ∀ rest, digits ≠ '+' :: rest)
    (hminus : ∀ rest, digits ≠ '-' :: rest) : Spells signs digits n ↔
      digits ≠ [] ∧ (∀ c ∈ digits, c.isDigit = true) ∧ n = Nat.ofDigitChars 10 digits 0 := by
  constructor
  · intro h
    cases h with
    | bare ne_nil decimal => exact ⟨ne_nil, decimal, rfl⟩
    | plus => exact absurd rfl (hplus _)
    | minus => exact absurd rfl (hminus _)
  · rintro ⟨ne_nil, decimal, rfl⟩
    exact .bare ne_nil decimal

/-- Without a minus sign no negative number is spelled. -/
theorem Spells.nonneg (h : Spells signs digits n) (hsigns : '-' ∉ signs) : 0 ≤ n := by
  cases h with
  | bare => exact Int.natCast_nonneg _
  | plus => exact Int.natCast_nonneg _
  | minus allowed => exact absurd allowed hsigns

/-- An integer starts and ends with a sign or a digit, so with no blank. -/
theorem Spells.isBlank_eq_false (h : Spells signs digits n) {c : Char} (hc : c ∈ digits) :
    isBlank c = false := by
  cases h with
  | bare _ decimal => exact isBlank_eq_false_of_isDigit (decimal c hc)
  | plus _ _ decimal | minus _ _ decimal =>
      rcases List.mem_cons.1 hc with rfl | hc
      · decide
      · exact isBlank_eq_false_of_isDigit (decimal c hc)

end Spells

section Range

variable {range : IntegerRange} {chars : List Char} {n : Int}

theorem IntegerRange.plus_mem_signs (range : IntegerRange) : '+' ∈ range.signs := by
  unfold signs
  split <;> decide

theorem IntegerRange.minus_mem_signs_iff : '-' ∈ range.signs ↔ range.least < 0 := by
  unfold signs
  split <;> simp_all

/-- The integers of a range around zero that characters spell are read, exactly. -/
theorem readIntegerChars_eq_ok_iff (hleast : range.least ≤ 0) (hgreatest : 0 ≤ range.greatest) :
    readIntegerChars range chars = .ok n ↔
      Spells range.signs chars n ∧ range.least ≤ n ∧ n ≤ range.greatest := by
  have hup : ∀ digits : List Char, readUp range.greatest 0 digits = .ok n ↔
      (∀ c ∈ digits, c.isDigit = true) ∧ n = Nat.ofDigitChars 10 digits 0 ∧
        n ≤ range.greatest := fun _ => readUp_eq_ok_iff 0 hgreatest
  have hdown : ∀ digits : List Char, readDown range.least 0 digits = .ok n ↔
      (∀ c ∈ digits, c.isDigit = true) ∧ n = -(Nat.ofDigitChars 10 digits 0 : Int) ∧
        range.least ≤ n := fun _ => readDown_eq_ok_iff 0 hleast
  rw [readIntegerChars.eq_def]
  split
  · -- Nothing is left of the text.
    simp [not_spells_nil]
  · -- There is a plus sign alone.
    simp [spells_plus_iff]
  · simp [spells_minus_iff]
  · rename_i digits hdigits
    have hne : digits ≠ [] := by
      rintro rfl
      exact hdigits rfl
    rw [hup, spells_plus_iff]
    constructor
    · rintro ⟨decimal, rfl, hfits⟩
      exact ⟨⟨range.plus_mem_signs, hne, decimal, rfl⟩, by omega, hfits⟩
    · rintro ⟨⟨-, -, decimal, heq⟩, -, hfits⟩
      exact ⟨decimal, heq, hfits⟩
  · rename_i digits hdigits
    have hne : digits ≠ [] := by
      rintro rfl
      exact hdigits rfl
    rw [spells_minus_iff, IntegerRange.minus_mem_signs_iff]
    split
    · rename_i hnegative
      rw [hdown]
      constructor
      · rintro ⟨decimal, rfl, hfits⟩
        exact ⟨⟨hnegative, hne, decimal, rfl⟩, hfits, by omega⟩
      · rintro ⟨⟨-, -, decimal, heq⟩, hfits, -⟩
        exact ⟨decimal, heq, hfits⟩
    · rename_i hnegative
      simp [hnegative]
  · rename_i hnil _ _ hplus hminus
    rw [hup, spells_iff_of_ne_sign hplus hminus]
    constructor
    · rintro ⟨decimal, rfl, hfits⟩
      exact ⟨⟨hnil, decimal, rfl⟩, by omega, hfits⟩
    · rintro ⟨⟨-, decimal, heq⟩, -, hfits⟩
      exact ⟨decimal, heq, hfits⟩

end Range

/-! ## Blanks around a text -/

/-- What is left of a text when all blanks at both of its ends are removed. -/
structure Stripped (text inner : List Char) : Prop where
  around : ∃ left right, text = left ++ inner ++ right ∧ (∀ c ∈ left, isBlank c = true) ∧
    ∀ c ∈ right, isBlank c = true
  first : ∀ c ∈ inner.head?, isBlank c = false
  last : ∀ c ∈ inner.getLast?, isBlank c = false

theorem exists_eq_append_dropWhile (text : List Char) :
    ∃ blanks, text = blanks ++ text.dropWhile isBlank ∧ (∀ c ∈ blanks, isBlank c = true) ∧
      ∀ c ∈ (text.dropWhile isBlank).head?, isBlank c = false := by
  induction text with
  | nil => exact ⟨[], rfl, List.forall_mem_nil _, by rintro c ⟨⟩⟩
  | cons c rest ih =>
      cases hc : isBlank c with
      | true =>
          obtain ⟨blanks, hrest, hblanks, hfirst⟩ := ih
          rw [List.dropWhile_cons_of_pos hc]
          refine ⟨c :: blanks, ?_, List.forall_mem_cons.2 ⟨hc, hblanks⟩, hfirst⟩
          rw [List.cons_append, ← hrest]
      | false =>
          rw [List.dropWhile_cons_of_neg (by simp [hc])]
          refine ⟨[], rfl, List.forall_mem_nil _, ?_⟩
          rintro d ⟨⟩
          exact hc

theorem stripped_trimChars (text : List Char) : Stripped text (trimChars text) := by
  obtain ⟨left, htext, hleft, hfirst⟩ := exists_eq_append_dropWhile text
  obtain ⟨right, hreverse, hright, hlast⟩ :=
    exists_eq_append_dropWhile (text.dropWhile isBlank).reverse
  have hinner : text.dropWhile isBlank = trimChars text ++ right.reverse := by
    rw [trimChars, dropBlankEnd, ← List.reverse_append, ← hreverse, List.reverse_reverse]
  refine ⟨⟨left, right.reverse, ?_, hleft, fun c hc => hright c (List.mem_reverse.1 hc)⟩, ?_, ?_⟩
  · rw [List.append_assoc, ← hinner]
    exact htext
  · -- What is removed at the end does not change the first character that is kept.
    intro c hc
    apply hfirst c
    rw [hinner, List.head?_append, Option.mem_def.1 hc]
    rfl
  · intro c hc
    apply hlast c
    rwa [trimChars, dropBlankEnd, List.getLast?_reverse] at hc

/-- Trimming is what removes the blanks at both ends of a text. -/
theorem stripped_iff {text : String} {inner : List Char} :
    Stripped text.toList inner ↔ inner = (trim text).toList := by
  rw [toList_trim]
  constructor
  · rintro ⟨⟨left, right, htext, hleft, hright⟩, hfirst, hlast⟩
    rw [htext, trimChars_append inner hleft hright hfirst hlast]
  · rintro rfl
    exact stripped_trimChars text.toList

/-- A text spells an integer, blanks at both ends apart. -/
def Spelled (signs : List Char) (text : String) (n : Int) : Prop :=
  ∃ inner, Stripped text.toList inner ∧ Spells signs inner n

section Spelled

variable {signs : List Char} {text : String} {range : IntegerRange} {n : Int}

theorem spelled_iff : Spelled signs text n ↔ Spells signs (trim text).toList n := by
  unfold Spelled
  simp only [stripped_iff, exists_eq_left]

theorem readInteger_trim_eq_ok_iff (hleast : range.least ≤ 0) (hgreatest : 0 ≤ range.greatest) :
    readInteger range (trim text) = .ok n ↔
      Spelled range.signs text n ∧ range.least ≤ n ∧ n ≤ range.greatest := by
  rw [readInteger, readIntegerChars_eq_ok_iff hleast hgreatest, spelled_iff]

/-- A text is refused when it spells nothing or a number outside of the range. -/
theorem exists_readInteger_trim_eq_error_iff (hleast : range.least ≤ 0)
    (hgreatest : 0 ≤ range.greatest) :
    (∃ fault, readInteger range (trim text) = .error fault) ↔
      ∀ n, Spelled range.signs text n → n < range.least ∨ range.greatest < n := by
  constructor
  · rintro ⟨fault, hfault⟩ n hn
    by_cases hfits : range.least ≤ n ∧ n ≤ range.greatest
    · have hread := (readInteger_trim_eq_ok_iff hleast hgreatest).2 ⟨hn, hfits⟩
      rw [hfault] at hread
      cases hread
    · omega
  · intro houtside
    cases hread : readInteger range (trim text) with
    | error fault => exact ⟨fault, rfl⟩
    | ok n =>
        obtain ⟨hn, hlow, hhigh⟩ := (readInteger_trim_eq_ok_iff hleast hgreatest).1 hread
        rcases houtside n hn with hlow' | hhigh'
        · exact absurd hlow (Int.not_le.2 hlow')
        · exact absurd hhigh (Int.not_le.2 hhigh')

/-- Blanks may stand around what spells an integer. -/
theorem Spelled.between {left right : String} (hleft : ∀ c ∈ left.toList, isBlank c = true)
    (hright : ∀ c ∈ right.toList, isBlank c = true) {inner : String}
    (h : Spells signs inner.toList n) : Spelled signs (left ++ inner ++ right) n := by
  refine ⟨inner.toList, ⟨⟨left.toList, right.toList, ?_, hleft, hright⟩, ?_, ?_⟩, h⟩
  · rw [String.toList_append, String.toList_append]
  · exact fun c hc => h.isBlank_eq_false (List.mem_of_mem_head? hc)
  · exact fun c hc => h.isBlank_eq_false (List.mem_of_mem_getLast? hc)

end Spelled

/-- The decimal text of an integer spells it. -/
theorem spells_toString {range : IntegerRange} {n : Int} (hleast : range.least ≤ 0)
    (hgreatest : 0 ≤ range.greatest) (hlow : range.least ≤ n) (hhigh : n ≤ range.greatest) :
    Spells range.signs (toString n).toList n :=
  ((readIntegerChars_eq_ok_iff hleast hgreatest).1
    (readInteger_toString hgreatest hlow hhigh)).1

end BehaviorTree.Text

namespace BehaviorTree

open Text (Spelled isBlank)

/-! ## Values and counts -/

namespace Value

variable {text : String}

theorem parse_int_eq_ok_iff {v : Value} : parse .int text = .ok v ↔
    ∃ n : Int64, v = .int n ∧ Spelled ['+', '-'] text n.toInt := by
  have hread : ∀ n : Int, Text.readInteger .int64 (Text.trim text) = .ok n ↔
      Spelled ['+', '-'] text n ∧ -0x8000000000000000 ≤ n ∧ n ≤ 0x7fffffffffffffff := fun n =>
    Text.readInteger_trim_eq_ok_iff (by decide) (by decide)
  rw [parse]
  constructor
  · intro h
    split at h
    · rename_i n hn
      cases h
      obtain ⟨hspelled, hlow, hhigh⟩ := (hread n).1 hn
      refine ⟨_, rfl, ?_⟩
      rwa [Int64.toInt_ofInt_of_le hlow (Int.lt_of_le_sub_one hhigh)]
    · cases h
  · rintro ⟨n, rfl, hspelled⟩
    rw [(hread n.toInt).2 ⟨hspelled, n.le_toInt, Int.le_of_lt_add_one n.toInt_lt⟩]
    dsimp only
    rw [Int64.ofInt_toInt]

theorem exists_parse_int_eq_error_iff :
    (∃ fault, parse .int text = .error ⟨.int, text, .integer fault⟩) ↔
      ∀ n, Spelled ['+', '-'] text n → n < -0x8000000000000000 ∨ 0x7fffffffffffffff < n := by
  have hrefused : (∃ fault, Text.readInteger .int64 (Text.trim text) = .error fault) ↔
      ∀ n, Spelled ['+', '-'] text n → n < -0x8000000000000000 ∨ 0x7fffffffffffffff < n :=
    Text.exists_readInteger_trim_eq_error_iff (by decide) (by decide)
  rw [← hrefused, parse]
  cases Text.readInteger .int64 (Text.trim text) <;> simp

end Value

namespace Spec

variable {config : Config} {path : String} {spec : Spec} {text : String}

theorem loopCount_eq_ok_iff (h : spec.attributes.get? config.countAttribute = some text)
    {count : UInt32} :
    spec.loopCount config path = .ok count ↔ Spelled ['+'] text count.toNat := by
  have hread : ∀ n : Int, Text.readInteger .uint32 (Text.trim text) = .ok n ↔
      Spelled ['+'] text n ∧ 0 ≤ n ∧ n ≤ 0xffffffff := fun n =>
    Text.readInteger_trim_eq_ok_iff (by decide) (by decide)
  rw [loopCount, h]
  dsimp only
  constructor
  · intro hcount
    split at hcount
    · rename_i n hn
      cases hcount
      rw [Text.toNat_ofNat_toNat_of_readInteger hn]
      exact ((hread n).1 hn).1
    · cases hcount
  · intro hspelled
    have hlt := count.toNat_lt
    rw [(hread count.toNat).2 ⟨hspelled, by omega, by omega⟩]
    dsimp only
    rw [Int.toNat_natCast, UInt32.ofNat_toNat]

theorem exists_loopCount_eq_error_iff
    (h : spec.attributes.get? config.countAttribute = some text) :
    (∃ fault, spec.loopCount config path =
        .error (.invalidAttribute config.countAttribute text (.badCount fault) path)) ↔
      ∀ n, Spelled ['+'] text n → 0xffffffff < n := by
  have hrefused : (∃ fault, Text.readInteger .uint32 (Text.trim text) = .error fault) ↔
      ∀ n, Spelled ['+'] text n → n < 0 ∨ 0xffffffff < n :=
    Text.exists_readInteger_trim_eq_error_iff (by decide) (by decide)
  have hlarge : (∀ n, Spelled ['+'] text n → n < 0 ∨ 0xffffffff < n) ↔
      ∀ n, Spelled ['+'] text n → 0xffffffff < n := by
    apply forall₂_congr
    rintro n ⟨inner, -, hspells⟩
    have hnonneg := hspells.nonneg (by decide)
    omega
  rw [← hlarge, ← hrefused, loopCount, h]
  dsimp only
  cases Text.readInteger .uint32 (Text.trim text) <;> simp

end Spec

/-- Integers are read exactly. A text is read as the integer `n` of 64 bits when it is `n` in
decimal digits, behind a sign or none, with white space around it or none; every other text is
refused by an error that has it whole, and the only numbers refused are those outside of the range.
The count of a loop is read in the same way, with no sign but plus, up to the greatest word of 32
bits. So the decimal text of every such number is read back as the number, whatever white space is
put around it. -/
theorem integers_read_exactly :
    (∀ text : String,
      (∀ v, Value.parse .int text = .ok v ↔
        ∃ n : Int64, v = .int n ∧ Spelled ['+', '-'] text n.toInt) ∧
      ((∃ fault, Value.parse .int text = .error ⟨.int, text, .integer fault⟩) ↔
        ∀ n, Spelled ['+', '-'] text n → n < -0x8000000000000000 ∨ 0x7fffffffffffffff < n)) ∧
    (∀ (config : Config) (path : String) (spec : Spec) (text : String),
      spec.attributes.get? config.countAttribute = some text →
        (∀ count : UInt32,
          spec.loopCount config path = .ok count ↔ Spelled ['+'] text count.toNat) ∧
        ((∃ fault, spec.loopCount config path =
            .error (.invalidAttribute config.countAttribute text (.badCount fault) path)) ↔
          ∀ n, Spelled ['+'] text n → 0xffffffff < n)) ∧
    ∀ left right : String, (∀ c ∈ left.toList, isBlank c = true) →
      (∀ c ∈ right.toList, isBlank c = true) →
        (∀ n : Int64, Value.parse .int (left ++ (Value.int n).display ++ right) = .ok (.int n)) ∧
        ∀ (config : Config) (path : String) (spec : Spec) (count : UInt32),
          spec.attributes.get? config.countAttribute =
              some (left ++ toString count.toNat ++ right) →
            spec.loopCount config path = .ok count := by
  refine ⟨fun text => ⟨fun v => Value.parse_int_eq_ok_iff, Value.exists_parse_int_eq_error_iff⟩,
    fun config path spec text h => ⟨fun count => Spec.loopCount_eq_ok_iff h,
      Spec.exists_loopCount_eq_error_iff h⟩, ?_⟩
  intro left right hleft hright
  constructor
  · intro n
    have hspells : Text.Spells ['+', '-'] (toString n.toInt).toList n.toInt :=
      @Text.spells_toString .int64 n.toInt (by decide) (by decide) n.le_toInt
        (Int.le_of_lt_add_one n.toInt_lt)
    exact Value.parse_int_eq_ok_iff.2 ⟨n, rfl, .between hleft hright hspells⟩
  · intro config path spec count htext
    have hlt := count.toNat_lt
    have hspells : Text.Spells ['+'] (toString (count.toNat : Int)).toList count.toNat :=
      @Text.spells_toString .uint32 count.toNat (by decide) (by decide) (Int.natCast_nonneg _)
        (by show (count.toNat : Int) ≤ 0xffffffff; omega)
    exact (Spec.loopCount_eq_ok_iff htext).2 (.between hleft hright hspells)

/-- The least integer of 64 bits and the greatest count, between two kinds of white space. -/
theorem integers_read_exactly_at_limits :
    ∃ spec : Spec, spec.attributes.get? "Count" = some "\t4294967295\u3000" ∧
      spec.loopCount .default "Loop" = .ok 4294967295 ∧
      Value.parse .int "\t-9223372036854775808\u3000" = .ok (.int Int64.minValue) := by
  let spec : Spec := (Spec.decorator "Loop").withAttribute "Count" "\t4294967295\u3000"
  have htext : spec.attributes.get? "Count" = some "\t4294967295\u3000" := by decide
  obtain ⟨hint, hcount⟩ :=
    integers_read_exactly.2.2 "\t" "\u3000" (by simp [isBlank]) (by simp [isBlank])
  exact ⟨spec, htext, hcount .default "Loop" spec 4294967295 htext, hint Int64.minValue⟩

end BehaviorTree
