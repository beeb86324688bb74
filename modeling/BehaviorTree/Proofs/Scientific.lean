import BehaviorTree.Binary64.Text
import BehaviorTree.Proofs.Parsing
import BehaviorTree.Proofs.Shortest

/-! # Scientific texts tell words apart

A scientific text has digits, a point with more digits or an exponent or both, and is taken apart in
one way only. Its value is that of the decimal it was written from, so two finite words with one
text are one word (`eq_of_scientificText_eq`). -/

namespace BehaviorTree.Binary64

/-- A point with digits behind it, if there are any. -/
def pointed : List Char → List Char
  | [] => []
  | fraction => '.' :: fraction

/-- An exponent behind its mark. -/
def marked : Option Int → List Char
  | none => []
  | some n => 'e' :: (if n < 0 then '-' else '+') :: Nat.toDigits 10 n.natAbs

/-- The parts of a number without sign: digits, and digits behind a point or an exponent. No zero
stands before other digits of the whole part. -/
structure Spelling where
  whole : List Char
  fraction : List Char
  exponent : Option Int
  isDigit_of_mem : ∀ c ∈ whole ++ fraction, c.isDigit = true
  whole_ne_nil : whole ≠ []
  unpadded : ∀ digit digits, whole ≠ '0' :: digit :: digits
  parted : fraction ≠ [] ∨ exponent ≠ none

namespace Spelling

def text (s : Spelling) : List Char := s.whole ++ (pointed s.fraction ++ marked s.exponent)

/-- The number that the parts spell. -/
def value (s : Spelling) : ℚ :=
  Nat.ofDigitChars 10 (s.whole ++ s.fraction) 0 *
    (10 : ℚ) ^ (s.exponent.getD 0 - s.fraction.length)

end Spelling

theorem marked_injective {m n : Option Int} (h : marked m = marked n) : m = n := by
  cases m with
  | none =>
      cases n with
      | none => rfl
      | some n => cases h
  | some m =>
      cases n with
      | none => cases h
      | some n =>
          obtain ⟨hsign, hdigits⟩ := List.cons.inj (List.cons.inj h).2
          have hnatAbs := Text.toDigits_injective hdigits
          by_cases hm : m < 0 <;> by_cases hn : n < 0
          · congr 1
            omega
          · rw [if_pos hm, if_neg hn] at hsign
            exact absurd hsign (by decide)
          · rw [if_neg hm, if_pos hn] at hsign
            exact absurd hsign (by decide)
          · congr 1
            omega

theorem head?_marked {n : Option Int} {c : Char} (h : c ∈ (marked n).head?) : c = 'e' := by
  cases n with
  | none => cases h
  | some n => exact (Option.some.inj h).symm

/-- Behind the whole digits stands a point, an exponent or nothing. -/
theorem head?_pointed_append_marked {fraction : List Char} {n : Option Int} {c : Char}
    (h : c ∈ (pointed fraction ++ marked n).head?) : c = '.' ∨ c = 'e' := by
  cases fraction with
  | nil => exact .inr (head?_marked h)
  | cons d fraction => exact .inl (Option.some.inj h).symm

theorem eq_of_pointed_append_marked_eq {fraction fraction' : List Char} {m n : Option Int}
    (h : pointed fraction ++ marked m = pointed fraction' ++ marked n)
    (hdigits : ∀ c ∈ fraction, c.isDigit = true) (hdigits' : ∀ c ∈ fraction', c.isDigit = true) :
    fraction = fraction' ∧ marked m = marked n := by
  have hnone : ∀ (n : Option Int), ∀ c ∈ (marked n).head?, c.isDigit = false := by
    intro n c hc
    rw [head?_marked hc]
    decide
  cases fraction with
  | nil =>
      cases fraction' with
      | nil => exact ⟨rfl, h⟩
      | cons c fraction' =>
          have hpoint : '.' ∈ (marked m).head? := congrArg List.head? h
          exact absurd (head?_marked hpoint) (by decide)
  | cons c fraction =>
      cases fraction' with
      | nil =>
          have hpoint : '.' ∈ (marked n).head? := congrArg List.head? h.symm
          exact absurd (head?_marked hpoint) (by decide)
      | cons c' fraction' =>
          exact Json.eq_of_append_eq (List.cons.inj h).2 hdigits hdigits' (hnone m) (hnone n)

namespace Spelling

variable {s t : Spelling}

/-- A text is taken apart in one way. -/
theorem value_eq_of_text_eq (h : s.text = t.text) : s.value = t.value := by
  have hstart : ∀ (fraction : List Char) (n : Option Int),
      ∀ c ∈ (pointed fraction ++ marked n).head?, c.isDigit = false := by
    intro fraction n c hc
    rcases head?_pointed_append_marked hc with rfl | rfl <;> decide
  have hs := List.forall_mem_append.1 s.isDigit_of_mem
  have ht := List.forall_mem_append.1 t.isDigit_of_mem
  obtain ⟨hwhole, hrest⟩ := Json.eq_of_append_eq h hs.1 ht.1 (hstart _ _) (hstart _ _)
  obtain ⟨hfraction, hmarked⟩ := eq_of_pointed_append_marked_eq hrest hs.2 ht.2
  rw [value, value, hwhole, hfraction, marked_injective hmarked]

theorem exists_text_eq_cons (s : Spelling) :
    ∃ c rest, s.text = c :: rest ∧ c.isDigit = true := by
  cases hwhole : s.whole with
  | nil => exact absurd hwhole s.whole_ne_nil
  | cons c whole =>
      refine ⟨c, whole ++ (pointed s.fraction ++ marked s.exponent), ?_, ?_⟩
      · rw [text, hwhole, List.cons_append]
      · exact s.isDigit_of_mem c (by rw [hwhole]; exact List.mem_cons_self)

theorem isNumeral_of_mem {c : Char} (h : c ∈ s.text) : Json.isNumeral c = true := by
  have hdigit : ∀ c : Char, c.isDigit = true → Json.isNumeral c = true := by
    intro c hc
    simp [Json.isNumeral, hc]
  have hs := List.forall_mem_append.1 s.isDigit_of_mem
  rw [text, List.mem_append, List.mem_append] at h
  rcases h with h | h | h
  · exact hdigit c (hs.1 c h)
  · cases hfraction : s.fraction with
    | nil =>
        rw [hfraction] at h
        exact absurd h List.not_mem_nil
    | cons d fraction =>
        rw [hfraction] at h hs
        rcases List.mem_cons.1 h with rfl | h
        · decide
        · exact hdigit c (hs.2 c h)
  · cases hexponent : s.exponent with
    | none =>
        rw [hexponent] at h
        exact absurd h List.not_mem_nil
    | some n =>
        rw [hexponent, marked] at h
        rcases List.mem_cons.1 h with rfl | h
        · decide
        rcases List.mem_cons.1 h with rfl | h
        · split <;> decide
        · exact hdigit c (Text.isDigit_of_mem_toDigits h)

/-- The text is not one of digits alone. -/
theorem exists_mem_text (s : Spelling) : ∃ c ∈ s.text, c = '.' ∨ c = 'e' := by
  rcases s.parted with h | h
  · cases hfraction : s.fraction with
    | nil => exact absurd hfraction h
    | cons d fraction => exact ⟨'.', by simp [text, hfraction, pointed], .inl rfl⟩
  · cases hexponent : s.exponent with
    | none => exact absurd hexponent h
    | some n => exact ⟨'e', by simp [text, hexponent, marked], .inr rfl⟩

end Spelling

/-! ## The spelling of a decimal -/

/-- The digits of a decimal around the point spell its value. -/
theorem Decimal.split_spells (d : Decimal) :
    d.split.1 ≠ [] ∧ (∀ c ∈ d.split.1 ++ d.split.2, c.isDigit = true) ∧
      Nat.ofDigitChars 10 (d.split.1 ++ d.split.2) 0 * (10 : ℚ) ^ (-(d.split.2.length : Int)) =
        d.value := by
  have hdigits : ∀ c ∈ Nat.toDigits 10 d.digits, c.isDigit = true := fun c hc =>
    Text.isDigit_of_mem_toDigits hc
  have hzeros : ∀ n : Nat, ∀ c ∈ List.replicate n '0', c.isDigit = true := by
    intro n c hc
    rw [List.eq_of_mem_replicate hc]
    decide
  have hlength : 0 < (Nat.toDigits 10 d.digits).length := Nat.length_toDigits_pos
  unfold Decimal.split Decimal.value
  dsimp only
  split
  · rename_i hwhole
    refine ⟨List.append_ne_nil_of_left_ne_nil Nat.toDigits_ne_nil _, ?_, ?_⟩
    · rw [List.append_nil, List.forall_mem_append]
      exact ⟨hdigits, hzeros _⟩
    · obtain ⟨n, hn⟩ := Int.eq_ofNat_of_zero_le hwhole
      rw [hn, Int.toNat_natCast, zpow_natCast, List.append_nil, Nat.ofDigitChars_append,
        Nat.ofDigitChars_replicate_zero, Nat.ofDigitChars_ten_toDigits, List.length_nil,
        Nat.cast_zero, neg_zero, zpow_zero, mul_one, mul_comm]
      push_cast
      rfl
  split
  · rename_i hpart hbefore
    rw [List.splitAt_eq, List.take_append_drop, Nat.ofDigitChars_ten_toDigits, List.length_drop]
    refine ⟨fun hnil => ?_, hdigits, ?_⟩
    · have hnone := congrArg List.length hnil
      rw [List.length_take, List.length_nil] at hnone
      omega
    · congr 2
      omega
  · rename_i hpart hbefore
    generalize hzerosBefore : (-((Nat.toDigits 10 d.digits).length + d.exponent)).toNat = n
    -- The zero before the point is one more of those behind it.
    show _ ∧ (∀ c ∈ List.replicate (n + 1) '0' ++ Nat.toDigits 10 d.digits, _) ∧
      (Nat.ofDigitChars 10 (List.replicate (n + 1) '0' ++ Nat.toDigits 10 d.digits) 0 : ℚ) * _ = _
    refine ⟨List.cons_ne_nil _ _, List.forall_mem_append.2 ⟨hzeros _, hdigits⟩, ?_⟩
    rw [Nat.ofDigitChars_append, Nat.ofDigitChars_replicate_zero, mul_zero,
      Nat.ofDigitChars_ten_toDigits, List.length_append, List.length_replicate]
    congr 2
    omega

/-- No zero stands before other digits in front of the point, unless zeros are put behind a zero. -/
theorem Decimal.unpadded_split {d : Decimal} (h : 0 < d.digits ∨ d.exponent ≤ 0) (digit : Char)
    (digits : List Char) : d.split.1 ≠ '0' :: digit :: digits := by
  unfold Decimal.split
  dsimp only
  split
  · rename_i hwhole
    rcases h with hpos | hexponent
    · dsimp only
      intro heq
      apply Json.head?_toDigits d.digits hpos
      rw [← List.head?_append_of_ne_nil _ Nat.toDigits_ne_nil, heq, List.head?_cons]
    · rw [show d.exponent.toNat = 0 by omega, List.replicate_zero, List.append_nil]
      exact Json.toDigits_ne_zero_cons d.digits digit digits
  split
  · rename_i hpart hbefore
    rw [List.splitAt_eq]
    dsimp only
    intro heq
    have hall := List.take_append_drop (↑(Nat.toDigits 10 d.digits).length + d.exponent).toNat
      (Nat.toDigits 10 d.digits)
    rw [heq] at hall
    exact Json.toDigits_ne_zero_cons d.digits _ _ hall.symm
  · rintro ⟨⟩

/-- A scientific text is the text of a number with the value of the decimal. -/
theorem Decimal.exists_spelling {d : Decimal} (h : 0 < d.digits ∨ d.exponent ≤ 0) :
    ∃ s : Spelling, d.scientific = s.text ∧ s.value = d.value := by
  obtain ⟨hwhole, hdigits, hvalue⟩ := d.split_spells
  have hunpadded := Decimal.unpadded_split h
  unfold Decimal.scientific
  split
  · cases hsplit : d.split with
    | mk whole fraction =>
        rw [hsplit] at hwhole hdigits hvalue hunpadded
        cases fraction with
        | nil =>
            rw [List.append_nil] at hdigits hvalue
            have hzero : ∀ c ∈ whole ++ ['0'], c.isDigit = true :=
              List.forall_mem_append.2 ⟨hdigits, List.forall_mem_singleton.2 rfl⟩
            refine ⟨⟨whole, ['0'], none, hzero, hwhole, hunpadded, .inl (List.cons_ne_nil _ _)⟩,
              rfl, ?_⟩
            rw [← hvalue, Spelling.value, Nat.ofDigitChars_append, Nat.ofDigitChars_cons,
              Nat.ofDigitChars_nil]
            simp [zpow_neg, mul_comm]
        | cons c fraction =>
            refine ⟨⟨whole, c :: fraction, none, hdigits, hwhole, hunpadded,
              .inl (List.cons_ne_nil _ _)⟩, ?_, ?_⟩
            · rw [Spelling.text, pointed, marked, List.append_nil]
              exact List.cons_ne_nil _ _
            · rw [Spelling.value, Option.getD_none, zero_sub]
              exact hvalue
  · have hexponent : ∀ fraction whole : List Char, Nat.toDigits 10 d.digits = whole ++ fraction →
        whole.length = 1 → (Nat.ofDigitChars 10 (whole ++ fraction) 0 : ℚ) *
          (10 : ℚ) ^ ((some d.leading).getD 0 - fraction.length) = d.value := by
      intro fraction whole hparts hone
      have hlength := congrArg List.length hparts
      rw [List.length_append, hone] at hlength
      rw [← hparts, Nat.ofDigitChars_ten_toDigits, Decimal.value, Option.getD_some,
        Decimal.leading]
      congr 2
      omega
    have hall : ∀ c ∈ Nat.toDigits 10 d.digits, c.isDigit = true := fun c hc =>
      Text.isDigit_of_mem_toDigits hc
    have hsingle : ∀ first digit digits, [first] ≠ '0' :: digit :: digits := by
      rintro first digit digits ⟨⟩
    match hparts : Nat.toDigits 10 d.digits with
    | [] => exact absurd hparts Nat.toDigits_ne_nil
    | [first] =>
        rw [hparts] at hall
        exact ⟨⟨[first], [], some d.leading, hall, List.cons_ne_nil _ _, hsingle first,
          .inr (Option.some_ne_none _)⟩, rfl, hexponent [] [first] hparts rfl⟩
    | first :: next :: rest =>
        rw [hparts] at hall
        exact ⟨⟨[first], next :: rest, some d.leading, hall, List.cons_ne_nil _ _, hsingle first,
          .inl (List.cons_ne_nil _ _)⟩, rfl, hexponent (next :: rest) [first] hparts rfl⟩

/-! ## Words -/

variable {x y : Binary64}

/-- Only zero is written as a zero, and without an exponent. -/
theorem digits_pos_or_decimal {n : Nat} (h : n < infiniteMagnitude) :
    0 < (decimal .even n).digits ∨ (decimal .even n).exponent ≤ 0 := by
  have hholds := (holds_decimal .even h).le.1
  unfold span at hholds
  unfold decimal at hholds ⊢
  cases hmantissa : significand n with
  | zero => exact .inr (Int.le_refl 0)
  | succ mantissa =>
      left
      rw [hmantissa, Interval.lower_around] at hholds
      dsimp only at hholds ⊢
      rw [Nat.pos_iff_ne_zero]
      intro hzero
      rw [Decimal.value, hzero, Nat.cast_zero, zero_mul] at hholds
      have hlow : 0 < (4 * (mantissa + 1) -
          if mantissa + 1 = 2 ^ 52 ∧ -1074 < scale n then 1 else 2 : Nat) := by
        split <;> omega
      have hpos : (0 : ℚ) < (2 : ℚ) ^ (scale n - 2) := by positivity
      exact absurd hholds (not_le_of_gt (mul_pos (Nat.cast_pos.2 hlow) hpos))

/-- The text of a finite word is its sign and the spelling of its decimal. -/
theorem exists_scientificText (h : x.isFinite = true) : ∃ s : Spelling,
    x.scientificText.toList = (if x.negative then '-' :: s.text else s.text) ∧
      s.value = (decimal .even x.magnitude).value := by
  obtain ⟨s, htext, hvalue⟩ :=
    Decimal.exists_spelling (digits_pos_or_decimal (of_decide_eq_true h))
  refine ⟨s, ?_, hvalue⟩
  rw [← htext, scientificText, textWith, reading_of_isFinite h, decimal]
  cases significand x.magnitude with
  | zero => exact String.toList_ofList
  | succ mantissa => exact String.toList_ofList

/-- Finite words with the same text are the same word. -/
theorem eq_of_scientificText_eq (hx : x.isFinite = true) (hy : y.isFinite = true)
    (h : x.scientificText = y.scientificText) : x = y := by
  obtain ⟨s, hs, hsvalue⟩ := exists_scientificText hx
  obtain ⟨t, ht, htvalue⟩ := exists_scientificText hy
  have htext : (if x.negative then '-' :: s.text else s.text) =
      if y.negative then '-' :: t.text else t.text := by
    rw [← hs, ← ht, h]
  have hplain : ∀ (u : Spelling) (rest : List Char), u.text ≠ '-' :: rest := by
    intro u rest heq
    obtain ⟨c, tail, htail, hc⟩ := u.exists_text_eq_cons
    rw [heq] at htail
    rw [← (List.cons.inj htail).1] at hc
    exact absurd hc (by decide)
  have hparts : x.negative = y.negative ∧ s.text = t.text := by
    cases hnx : x.negative <;> cases hny : y.negative <;> rw [hnx, hny] at htext
    · exact ⟨rfl, htext⟩
    · exact absurd htext (hplain s _)
    · exact absurd htext.symm (hplain t _)
    · exact ⟨rfl, (List.cons.inj htext).2⟩
  apply eq_of_magnitude_eq hparts.1
  apply magnitude_eq_of_value_eq hx hy
  rw [← hsvalue, ← htvalue]
  exact Spelling.value_eq_of_text_eq hparts.2

end BehaviorTree.Binary64
