import BehaviorTree.Proofs.Dump

/-! # Printed trees can be read

Whatever the arguments of a tree are, the text of its JSON form is a JSON text again: a finite
floating-point number is written as a number, and one that is not finite as null. So the text is
read as a value (`exists_readAs_toJson`), in which nothing differs from the form but the numbers. -/

namespace BehaviorTree

namespace Json

open Binary64 (Spelling pointed marked)

/-! ## Floating-point numbers -/

section Numbers

variable {rest : List Char}

/-- Behind the digits of a number stands its exponent, or what no number goes on with. -/
theorem head?_marked_append {exponent : Option Int} (h : Stops rest) :
    ∀ c ∈ (marked exponent ++ rest).head?, c.isDigit = false ∧ c ≠ '.' := by
  intro c hc
  cases exponent with
  | none =>
      refine ⟨h.isDigit_eq_false c hc, ?_⟩
      rintro rfl
      exact absurd (h '.' hc) (by decide)
  | some n =>
      obtain rfl : 'e' = c := Option.some.inj hc
      decide

theorem readFraction_pointed {fraction : List Char} {exponent : Option Int}
    (hdigits : ∀ c ∈ fraction, c.isDigit = true) (h : Stops rest) :
    readFraction (pointed fraction ++ (marked exponent ++ rest)) =
      some (fraction, marked exponent ++ rest) := by
  have hnext := @head?_marked_append rest exponent h
  cases fraction with
  | nil =>
      rw [pointed, List.nil_append, readFraction.eq_def]
      split
      · rename_i heq
        exact absurd rfl (hnext '.' (by rw [heq]; rfl)).2
      · rfl
  | cons digit fraction =>
      rw [pointed, List.cons_append, readFraction, span_append hdigits fun c hc => (hnext c hc).1]
      exact List.cons_ne_nil digit fraction

theorem readExponent_marked {exponent : Option Int} (h : Stops rest) :
    readExponent (marked exponent ++ rest) = some (exponent, rest) := by
  cases exponent with
  | none => exact readExponent_of_stops h
  | some n =>
      have hdigits : ∀ c ∈ Nat.toDigits 10 n.natAbs, c.isDigit = true := fun c =>
        Text.isDigit_of_mem_toDigits
      have hsign : Binary64.splitSign
          ((if n < 0 then '-' else '+') :: (Nat.toDigits 10 n.natAbs ++ rest)) =
          (decide (n < 0), Nat.toDigits 10 n.natAbs ++ rest) := by
        split <;> rename_i hn <;> simp [Binary64.splitSign, hn]
      have hvalue : (if decide (n < 0) = true then -(n.natAbs : Int) else n.natAbs) = n := by
        simp only [decide_eq_true_eq]
        omega
      rw [marked, List.cons_append, List.cons_append, readExponent, if_pos (.inl rfl), hsign]
      dsimp only
      rw [span_append hdigits h.isDigit_eq_false]
      split
      · rename_i heq
        exact absurd (Prod.mk.inj heq).1 Nat.toDigits_ne_nil
      · rename_i heq
        obtain ⟨rfl, rfl⟩ := Prod.mk.inj heq
        rw [Nat.ofDigitChars_ten_toDigits, hvalue]

theorem isDigit_eq_false_of_head? {fraction : List Char} {exponent : Option Int}
    (h : Stops rest) :
    ∀ c ∈ (pointed fraction ++ (marked exponent ++ rest)).head?, c.isDigit = false := by
  intro c hc
  cases fraction with
  | nil => exact (head?_marked_append h c hc).1
  | cons digit fraction =>
      obtain rfl : '.' = c := Option.some.inj hc
      rfl

/-- The parts of a number are read off one by one. What is written by parts is no integer. -/
theorem readMagnitude_spelling (negative : Bool) (s : Spelling) (h : Stops rest) :
    readMagnitude negative (s.text ++ rest) =
      some (floatOf negative s.whole s.fraction (s.exponent.getD 0), rest) := by
  obtain ⟨hwhole, hfraction⟩ := List.forall_mem_append.1 s.isDigit_of_mem
  unfold readMagnitude
  rw [Spelling.text, List.append_assoc, List.append_assoc,
    span_append hwhole (isDigit_eq_false_of_head? h)]
  dsimp only
  rw [readFraction_pointed hfraction h, Option.bind_eq_bind, Option.bind_some]
  dsimp only
  rw [readExponent_marked h, Option.bind_eq_bind, Option.bind_some]
  dsimp only
  rw [if_neg fun hparts => s.parted.elim (· hparts.1) (· hparts.2.1)]
  split
  · rename_i hnil
    exact absurd hnil s.whole_ne_nil
  · rename_i hzero
    exact absurd hzero (s.unpadded _ _)
  · rfl

theorem isAtom_floatOf (negative : Bool) (whole fraction : List Char) (exponent : Int) :
    (floatOf negative whole fraction exponent).IsAtom := by
  unfold floatOf
  dsimp only
  split <;> trivial

theorem readAs_int64 (n : Int64) : ReadAs (.integer n.toInt) (.integer n.toInt) := by
  have hlow := Int64.le_toInt n
  have hhigh := Int64.toInt_lt n
  exact .integer (by omega) (by omega)

/-- A number that is not finite is read as null. -/
theorem readAs_float_of_not_finite {x : Binary64} (h : ¬ x.isFinite = true) :
    ReadAs (.float x) .null := by
  refine .float trivial fun fuel => ?_
  rw [writeFloat, if_neg h]
  exact reads_null

/-- The text of a floating-point number is read as a value, though not always as this number. -/
theorem exists_readAs_float (x : Binary64) : ∃ found, ReadAs (.float x) found := by
  by_cases hx : x.isFinite = true
  · obtain ⟨s, htext, -⟩ := Binary64.exists_scientificText hx
    refine ⟨_, .float (isAtom_floatOf x.negative s.whole s.fraction (s.exponent.getD 0)) ?_⟩
    intro fuel gap rest hgap hrest
    have hread := readMagnitude_spelling x.negative s hrest
    rw [writeFloat_of_isFinite hx, htext]
    cases hnegative : x.negative with
    | true =>
        rw [if_pos rfl, List.cons_append, readValue, skipSpace_gap hgap (by decide)]
        rw [hnegative] at hread
        exact hread
    | false =>
        obtain ⟨c, tail, hs, hc⟩ := s.exists_text_eq_cons
        rw [hnegative, hs, List.cons_append] at hread
        rw [if_neg Bool.false_ne_true, hs, List.cons_append, readValue_of_digit hgap hc]
        exact hread
  · exact ⟨.null, readAs_float_of_not_finite hx⟩

end Numbers

/-! ## Parts -/

theorem exists_readAs_array {items : List Json} (h : ∀ item ∈ items, ∃ found, ReadAs item found) :
    ∃ found, ReadAs (.array items) found := by
  choose! found hfound using h
  have hread := @ReadAs.array (items.map fun item => (item, found item))
    (List.forall_mem_map.2 hfound)
  simp only [List.map_map, Function.comp_def, List.map_id'] at hread
  exact ⟨_, hread⟩

theorem exists_readAs_object {fields : List (String × Json)}
    (h : ∀ field ∈ fields, ∃ found, ReadAs field.2 found) :
    ∃ found, ReadAs (.object fields) found := by
  choose! found hfound using h
  have hread := @ReadAs.object (fields.map fun field => (field.1, field.2, found field))
    (List.forall_mem_map.2 hfound)
  simp only [List.map_map, Function.comp_def, List.map_id'] at hread
  exact ⟨_, hread⟩

end Json

open Json

theorem Value.exists_readAs_toJson (v : Value) : ∃ found, ReadAs v.toJson found := by
  cases v with
  | int n => exact ⟨_, readAs_int64 n⟩
  | float x => exact exists_readAs_float x
  | str s => exact ⟨_, .string s⟩

theorem Kwargs.exists_readAs_toJson (kwargs : Kwargs) : ∃ found, ReadAs kwargs.toJson found := by
  apply exists_readAs_object
  rw [List.forall_mem_map]
  exact fun entry _ => entry.2.exists_readAs_toJson

namespace Node

/-- The text of a compiled tree is read as a value. -/
theorem exists_readAs_toJson {node : Node} (h : node.fresh = node) :
    ∃ found, ReadAs node.toJson found := by
  induction node using child_induction with
  | step node ih =>
      cases node with
      | composite policy nodes =>
          rw [fresh, composite.injEq, freshAll_eq_map] at h
          have hfresh : ∀ child ∈ nodes, child.fresh = child :=
            List.map_inj_left.1 (h.2.trans nodes.map_id.symm)
          have hchildren : ∀ child ∈ nodes, ∃ found, ReadAs child.toJson found :=
            fun child hchild => ih child hchild (hfresh child hchild)
          rw [toJson_composite]
          apply exists_readAs_object
          rw [List.forall_mem_cons, List.forall_mem_cons]
          refine ⟨⟨_, .string _⟩, exists_readAs_array (List.forall_mem_map.2 hchildren), ?_⟩
          -- A cursor that is back at the first child is written as zero.
          rw [← h.1]
          cases policy with
          | alternate cursor =>
              exact List.forall_mem_singleton.2 ⟨_, .integer (by decide) (by decide)⟩
          | _ => exact List.forall_mem_nil _
      | loop count child =>
          rw [fresh, loop.injEq] at h
          have hcount := count.toNat_lt
          rw [toJson]
          apply exists_readAs_object
          simp only [List.forall_mem_cons]
          exact ⟨⟨_, .string _⟩, ⟨_, .integer (by omega) (by omega)⟩,
            ih child (List.mem_singleton_self child) h.2, List.forall_mem_nil _⟩
      | leaf role bound =>
          rw [toJson_leaf, Leaf.toJson]
          apply exists_readAs_object
          simp only [List.forall_mem_cons]
          exact ⟨⟨_, .string _⟩, ⟨_, .string _⟩, bound.kwargs.exists_readAs_toJson, ⟨_, .string _⟩,
            List.forall_mem_nil _⟩

end Node

end BehaviorTree
