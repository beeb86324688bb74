import BehaviorTree.Value

/-! # Decimal texts

Reading goes through the digits of a text and never leaves the range on the way, so what it reads is
the number that all digits spell, and it reads it exactly when that number is in the range: more
digits only lead further away from zero. The decimal text of an integer has no blanks, and its
digits spell the integer; so the text of every integer of a range is read back as that integer. -/

namespace BehaviorTree.Text

theorem le_ofDigitChars (digits : List Char) (acc : Nat) :
    acc ≤ Nat.ofDigitChars 10 digits acc := by
  induction digits generalizing acc with
  | nil => exact Nat.le_refl acc
  | cons c rest ih =>
      rw [Nat.ofDigitChars_cons]
      have hrest := ih (10 * acc + (c.toNat - '0'.toNat))
      omega

section Read

variable {bound n : Int} {digits : List Char}

/-- Reading upwards finds the number that the digits spell, if it is in the range. -/
theorem readUp_eq_ok_iff (acc : Nat) (hacc : acc ≤ bound) : readUp bound acc digits = .ok n ↔
    (∀ c ∈ digits, c.isDigit = true) ∧ n = Nat.ofDigitChars 10 digits acc ∧ n ≤ bound := by
  induction digits generalizing acc with
  | nil =>
      rw [readUp, Nat.ofDigitChars_nil]
      constructor
      · intro h
        cases h
        exact ⟨fun c hc => absurd hc List.not_mem_nil, rfl, hacc⟩
      · rintro ⟨-, rfl, -⟩
        rfl
  | cons c rest ih =>
      have hnext : (acc : Int) * 10 + digitValue c =
          ((10 * acc + (c.toNat - '0'.toNat) : Nat) : Int) := by
        rw [digitValue]
        omega
      rw [readUp, Nat.ofDigitChars_cons, List.forall_mem_cons, hnext]
      by_cases hc : c.isDigit = true
      · rw [if_pos hc]
        dsimp only
        split
        · rename_i hfits
          rw [ih _ hfits]
          simp only [hc, true_and]
        · rename_i hlarge
          -- The number that all digits spell is not smaller.
          have hle := le_ofDigitChars rest (10 * acc + (c.toNat - '0'.toNat))
          constructor
          · intro h
            cases h
          · rintro ⟨-, rfl, hfits⟩
            omega
      · rw [if_neg hc]
        constructor
        · intro h
          cases h
        · rintro ⟨⟨hdigit, -⟩, -⟩
          exact absurd hdigit hc

/-- Reading downwards is reading upwards on the other side of zero. -/
theorem readDown_eq_ok_iff_readUp (acc : Int) :
    readDown bound (-acc) digits = .ok n ↔ readUp (-bound) acc digits = .ok (-n) := by
  induction digits generalizing acc with
  | nil =>
      rw [readDown, readUp, Except.ok.injEq, Except.ok.injEq]
      omega
  | cons c rest ih =>
      have hnext : -acc * 10 - digitValue c = -(acc * 10 + digitValue c) := by omega
      rw [readDown, readUp, hnext]
      dsimp only
      by_cases hc : c.isDigit = true
      · rw [if_pos hc, if_pos hc]
        by_cases hfits : acc * 10 + digitValue c ≤ -bound
        · rw [if_pos hfits, if_pos (by omega), ih]
        · rw [if_neg hfits, if_neg (by omega)]
          simp
      · rw [if_neg hc, if_neg hc]
        simp

theorem readDown_eq_ok_iff (acc : Nat) (hacc : bound ≤ -acc) :
    readDown bound (-acc) digits = .ok n ↔ (∀ c ∈ digits, c.isDigit = true) ∧
      n = -(Nat.ofDigitChars 10 digits acc : Int) ∧ bound ≤ n := by
  rw [readDown_eq_ok_iff_readUp, readUp_eq_ok_iff acc (by omega)]
  constructor <;> rintro ⟨hdigits, hn, hbound⟩ <;> exact ⟨hdigits, by omega, by omega⟩

end Read

/-! ## Signs -/

section Sign

variable {range : IntegerRange} {digits : List Char}

/-- A text that starts with a digit is read upwards. -/
theorem readIntegerChars_of_digit {c : Char} (h : c.isDigit = true) :
    readIntegerChars range (c :: digits) = readUp range.greatest 0 (c :: digits) := by
  have hplus : c ≠ '+' := by
    rintro rfl
    exact absurd h (by decide)
  have hminus : c ≠ '-' := by
    rintro rfl
    exact absurd h (by decide)
  simp [readIntegerChars, hplus, hminus]

theorem readIntegerChars_of_minus (hne : digits ≠ []) (hrange : range.least < 0) :
    readIntegerChars range ('-' :: digits) = readDown range.least 0 digits := by
  simp [readIntegerChars, hrange]

end Sign

/-! ## The texts of integers -/

theorem toList_toString_of_nonneg {n : Int} (h : 0 ≤ n) :
    (toString n).toList = Nat.toDigits 10 n.toNat := by
  show n.repr.toList = _
  rw [Int.repr_eq_if, if_pos h, Nat.toList_repr]

theorem toList_toString_of_neg {n : Int} (h : n < 0) :
    (toString n).toList = '-' :: Nat.toDigits 10 (-n).toNat := by
  show n.repr.toList = _
  rw [Int.repr_eq_if, if_neg (Int.not_le.2 h), String.toList_append, Nat.toList_repr]
  rfl

theorem isDigit_of_mem_toDigits {c : Char} {n : Nat} (h : c ∈ Nat.toDigits 10 n) :
    c.isDigit = true :=
  Nat.isDigit_of_mem_toDigits (by decide) (by decide) h

theorem toDigits_injective {m n : Nat} (h : Nat.toDigits 10 m = Nat.toDigits 10 n) : m = n := by
  rw [← @Nat.ofDigitChars_ten_toDigits m, h, Nat.ofDigitChars_ten_toDigits]

theorem eq_of_toString_eq {m n : Nat} (h : toString m = toString n) : m = n := by
  have hdigits := congrArg String.toList h
  rw [Nat.toString_eq_repr, Nat.toString_eq_repr, Nat.toList_repr, Nat.toList_repr] at hdigits
  exact toDigits_injective hdigits

/-- The text of every integer of a range with zero is read back. -/
theorem readInteger_toString {range : IntegerRange} {n : Int} (hzero : 0 ≤ range.greatest)
    (hlow : range.least ≤ n) (hhigh : n ≤ range.greatest) :
    readInteger range (toString n) = .ok n := by
  unfold readInteger
  by_cases hn : 0 ≤ n
  · rw [toList_toString_of_nonneg hn]
    cases hdigits : Nat.toDigits 10 n.toNat with
    | nil => exact absurd hdigits Nat.toDigits_ne_nil
    | cons c rest =>
        have hall : ∀ d ∈ c :: rest, d.isDigit = true := fun d hd =>
          isDigit_of_mem_toDigits (hdigits ▸ hd)
        rw [readIntegerChars_of_digit (hall c List.mem_cons_self)]
        apply (readUp_eq_ok_iff 0 hzero).2
        refine ⟨hall, ?_, hhigh⟩
        rw [← hdigits, Nat.ofDigitChars_ten_toDigits]
        omega
  · have hneg : n < 0 := Int.not_le.1 hn
    rw [toList_toString_of_neg hneg,
      readIntegerChars_of_minus Nat.toDigits_ne_nil (Int.lt_of_le_of_lt hlow hneg)]
    apply (readDown_eq_ok_iff 0 (by omega)).2
    refine ⟨fun d => isDigit_of_mem_toDigits, ?_, hlow⟩
    rw [Nat.ofDigitChars_ten_toDigits]
    omega

/-! ## Blanks -/

theorem isBlank_eq_false_of_isDigit {c : Char} (h : c.isDigit = true) : isBlank c = false := by
  have hrange : 48 ≤ c.toNat ∧ c.toNat ≤ 57 := Char.isDigit_iff_toNat.1 h
  simp only [isBlank, Bool.or_eq_false_iff, Bool.and_eq_false_iff, decide_eq_false_iff_not,
    beq_eq_false_iff_ne]
  omega

/-- The text of an integer has no blanks. -/
theorem isBlank_eq_false_of_mem_toString {n : Int} {c : Char} (h : c ∈ (toString n).toList) :
    isBlank c = false := by
  by_cases hn : 0 ≤ n
  · rw [toList_toString_of_nonneg hn] at h
    exact isBlank_eq_false_of_isDigit (isDigit_of_mem_toDigits h)
  · rw [toList_toString_of_neg (Int.not_le.1 hn)] at h
    rcases List.mem_cons.1 h with rfl | h
    · decide
    · exact isBlank_eq_false_of_isDigit (isDigit_of_mem_toDigits h)

/-- Nothing is dropped from a text without blanks. -/
theorem trim_eq_self {s : String} (h : ∀ c ∈ s.toList, isBlank c = false) : trim s = s := by
  have hchars := @trimChars_append [] [] s.toList (by simp) (by simp)
    (fun c hc => h c (List.mem_of_mem_head? hc)) (fun c hc => h c (List.mem_of_mem_getLast? hc))
  rw [List.nil_append, List.append_nil] at hchars
  rw [trim, hchars, String.ofList_toList]

theorem trim_toString (n : Int) : trim (toString n) = toString n :=
  trim_eq_self fun _ => isBlank_eq_false_of_mem_toString

end BehaviorTree.Text

namespace BehaviorTree.Value

/-- The text of every integer of 64 bits is read as that integer. -/
theorem parse_toString (n : Int64) : parse .int (toString n.toInt) = .ok (.int n) := by
  have hlow := n.le_toInt
  have hhigh := n.toInt_lt
  have hread : Text.readInteger .int64 (toString n.toInt) = .ok n.toInt :=
    Text.readInteger_toString (by decide) hlow (Int.le_of_lt_add_one hhigh)
  rw [parse, Text.trim_toString, hread]
  dsimp only
  rw [Int64.ofInt_toInt]

end BehaviorTree.Value
