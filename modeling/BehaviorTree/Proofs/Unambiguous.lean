import BehaviorTree.Proofs.Scientific

/-! # JSON texts tell values apart

A text of a value ends by itself: whatever follows, the same characters are the text of no other
value (`cutsOff_text`). The first character tells the kind of value, numbers and texts tell where
they end, and the parts of arrays and objects are cut off one by one. So values with the same text
are equal. The exceptions are floating-point numbers that are not finite and ill-formed values: they
have no text of their own. -/

namespace BehaviorTree

namespace Json

/-- A value whose text spells all of it: its numbers are finite, and no part is ill-formed. -/
inductive Spelled : Json → Prop where
  | null : Spelled .null
  | bool (b : Bool) : Spelled (.bool b)
  | integer (n : Int) : Spelled (.integer n)
  | float {x : Binary64} (finite : x.isFinite = true) : Spelled (.float x)
  | string (s : String) : Spelled (.string s)
  | array {items : List Json} (items_spelled : ∀ item ∈ items, Spelled item) :
      Spelled (.array items)
  | object {fields : List (String × Json)} (values_spelled : ∀ entry ∈ fields, Spelled entry.2) :
      Spelled (.object fields)

/-- The kinds of values that differ in the first characters of their texts. -/
inductive Kind where
  | null
  | true
  | false
  | number
  | string
  | array
  | object
  deriving DecidableEq

def kind : Json → Kind
  | .null => .null
  | .bool b => if b then .true else .false
  | .integer _ => .number
  | .float _ => .number
  | .string _ => .string
  | .array _ => .array
  | .object _ => .object
  | .illFormed => .null

/-- The kind of value that starts with a character. -/
def kindAt? (c : Char) : Option Kind :=
  if c.isDigit then some .number
  else match c with
    | '-' => some .number
    | 'n' => some .null
    | 't' => some .true
    | 'f' => some .false
    | '"' => some .string
    | '[' => some .array
    | '\x7b' => some .object
    | _ => none

variable {spacing : Spacing} {level : Nat} {a b json : Json} {rest rest' : List Char}

/-! ## Numbers -/

theorem isNumeral_of_mem_writeInt {n : Int} {c : Char} (h : c ∈ writeInt n) :
    isNumeral c = true ∧ c ≠ '.' ∧ c ≠ 'e' := by
  have hdigit : c ∈ Nat.toDigits 10 n.natAbs → isNumeral c = true ∧ c ≠ '.' ∧ c ≠ 'e' := by
    intro hc
    have hc := Text.isDigit_of_mem_toDigits hc
    refine ⟨by simp [isNumeral, hc], ?_, ?_⟩ <;> rintro rfl <;> exact absurd hc (by decide)
  unfold writeInt at h
  split at h
  · rcases List.mem_cons.1 h with rfl | h
    · decide
    · exact hdigit h
  · exact hdigit h

theorem writeInt_injective {m n : Int} (h : writeInt m = writeInt n) : m = n := by
  have hplain : ∀ (n : Nat) (rest : List Char), Nat.toDigits 10 n ≠ '-' :: rest := by
    intro n rest heq
    have hminus : '-' ∈ Nat.toDigits 10 n := heq ▸ List.mem_cons_self
    exact absurd (Text.isDigit_of_mem_toDigits hminus) (by decide)
  unfold writeInt at h
  by_cases hm : m < 0 <;> by_cases hn : n < 0
  · rw [if_pos hm, if_pos hn] at h
    have habs := Text.toDigits_injective (List.cons.inj h).2
    omega
  · rw [if_pos hm, if_neg hn] at h
    exact absurd h.symm (hplain _ _)
  · rw [if_neg hm, if_pos hn] at h
    exact absurd h (hplain _ _)
  · rw [if_neg hm, if_neg hn] at h
    have habs := Text.toDigits_injective h
    omega

theorem writeFloat_of_isFinite {x : Binary64} (h : x.isFinite = true) :
    writeFloat x = x.scientificText.toList := if_pos h

/-- The text of a finite number is told from that of an integer by a point or an exponent. -/
theorem writeInt_ne_writeFloat {n : Int} {x : Binary64} (hx : x.isFinite = true) :
    writeInt n ≠ writeFloat x := by
  obtain ⟨s, htext, -⟩ := Binary64.exists_scientificText hx
  obtain ⟨c, hc, hmark⟩ := s.exists_mem_text
  rw [writeFloat_of_isFinite hx, htext]
  intro h
  have hmem : c ∈ writeInt n := by
    rw [h]
    split
    · exact List.mem_cons_of_mem _ hc
    · exact hc
  obtain ⟨-, hpoint, hexponent⟩ := isNumeral_of_mem_writeInt hmem
  exact hmark.elim hpoint hexponent

theorem isNumeral_of_mem_writeFloat {x : Binary64} (hx : x.isFinite = true) {c : Char}
    (h : c ∈ writeFloat x) : isNumeral c = true := by
  obtain ⟨s, htext, -⟩ := Binary64.exists_scientificText hx
  rw [writeFloat_of_isFinite hx, htext] at h
  split at h
  · rcases List.mem_cons.1 h with rfl | h
    · decide
    · exact s.isNumeral_of_mem h
  · exact s.isNumeral_of_mem h

/-- A number is an integer or a finite floating-point number. -/
theorem Spelled.number_cases (h : Spelled json) (hkind : json.kind = .number) :
    (∃ n, json = .integer n) ∨ ∃ x : Binary64, x.isFinite = true ∧ json = .float x := by
  cases h with
  | integer n => exact .inl ⟨n, rfl⟩
  | float finite => exact .inr ⟨_, finite, rfl⟩
  | bool b => cases b <;> cases hkind
  | _ => cases hkind

theorem isNumeral_of_mem_text (h : Spelled json) (hkind : json.kind = .number) :
    ∀ c ∈ spacing.text level json, isNumeral c = true := by
  intro c hc
  rcases h.number_cases hkind with ⟨n, rfl⟩ | ⟨x, hx, rfl⟩
  · exact (isNumeral_of_mem_writeInt hc).1
  · exact isNumeral_of_mem_writeFloat hx hc

theorem eq_of_number_text_eq (ha : Spelled a) (hb : Spelled b) (hkinda : a.kind = .number)
    (hkindb : b.kind = .number) (h : spacing.text level a = spacing.text level b) : a = b := by
  rcases ha.number_cases hkinda with ⟨m, rfl⟩ | ⟨x, hx, rfl⟩
  · rcases hb.number_cases hkindb with ⟨n, rfl⟩ | ⟨y, hy, rfl⟩
    · exact congrArg Json.integer (writeInt_injective h)
    · exact absurd h (writeInt_ne_writeFloat hy)
  · rcases hb.number_cases hkindb with ⟨n, rfl⟩ | ⟨y, hy, rfl⟩
    · exact absurd h.symm (writeInt_ne_writeFloat hx)
    · have htext : writeFloat x = writeFloat y := h
      rw [writeFloat_of_isFinite hx, writeFloat_of_isFinite hy] at htext
      exact congrArg Json.float (Binary64.eq_of_scientificText_eq hx hy (String.toList_inj.1 htext))

/-! ## Starts -/

theorem kindAt?_of_isDigit {c : Char} (h : c.isDigit = true) : kindAt? c = some .number :=
  if_pos h

/-- The first character tells the kind of value. -/
theorem exists_text_eq_cons (h : Spelled json) :
    ∃ c tail, spacing.text level json = c :: tail ∧ kindAt? c = some json.kind := by
  cases h with
  | null => exact ⟨_, _, rfl, rfl⟩
  | bool b => cases b <;> exact ⟨_, _, rfl, rfl⟩
  | integer n =>
      rw [Spacing.text, writeInt]
      split
      · exact ⟨_, _, rfl, rfl⟩
      · cases hdigits : Nat.toDigits 10 n.natAbs with
        | nil => exact absurd hdigits Nat.toDigits_ne_nil
        | cons c digits =>
            have hc : c ∈ Nat.toDigits 10 n.natAbs := hdigits ▸ List.mem_cons_self
            exact ⟨c, digits, rfl, kindAt?_of_isDigit (Text.isDigit_of_mem_toDigits hc)⟩
  | @float x finite =>
      obtain ⟨s, htext, -⟩ := Binary64.exists_scientificText finite
      obtain ⟨c, tail, hs, hc⟩ := s.exists_text_eq_cons
      rw [Spacing.text, writeFloat_of_isFinite finite, htext]
      split
      · exact ⟨_, _, rfl, rfl⟩
      · exact ⟨c, tail, hs, kindAt?_of_isDigit hc⟩
  | string s => exact ⟨_, _, rfl, rfl⟩
  | @array items _ =>
      rw [Spacing.text]
      cases spacing.itemTexts (level + 1) items <;> exact ⟨_, _, rfl, rfl⟩
  | @object fields _ =>
      rw [Spacing.text]
      cases spacing.fieldTexts (level + 1) fields <;> exact ⟨_, _, rfl, rfl⟩

theorem kind_eq_of_append_eq (ha : Spelled a) (hb : Spelled b)
    (h : spacing.text level a ++ rest = spacing.text level b ++ rest') : a.kind = b.kind := by
  obtain ⟨c, tail, htext, hc⟩ := @exists_text_eq_cons spacing level a ha
  obtain ⟨d, tail', htext', hd⟩ := @exists_text_eq_cons spacing level b hb
  rw [htext, htext', List.cons_append, List.cons_append, List.cons.injEq] at h
  rw [h.1, hd] at hc
  exact (Option.some.inj hc).symm

/-! ## Parts -/

section Parts

variable {α : Type} {write : α → List Char} {good : α → Prop} {close : Char}

/-- The text of `a` is cut off from what follows in one way, and is the text of nothing else. -/
def CutsOff (write : α → List Char) (good : α → Prop) (a : α) : Prop :=
  ∀ b rest rest', good b → Stops rest → Stops rest' → write a ++ rest = write b ++ rest' →
    a = b ∧ rest = rest'

/-- What stands behind the last item is told from a comma. -/
theorem close_ne_comma_cons (hclose : isSpace close = false) (hcomma : close ≠ ',')
    {rest tail : List Char} : spacing.before level ++ close :: rest ≠ ',' :: tail := by
  intro h
  have hskip := congrArg skipSpace h
  rw [skipSpace_gap (spacing.space_before level) hclose, skipSpace_cons (by decide)] at hskip
  exact hcomma (List.cons.inj hskip).1

theorem eq_of_more_append_eq {items items' : List α} (hclose : isSpace close = false)
    (hnumeral : isNumeral close = false) (hcomma : close ≠ ',')
    (hcuts : ∀ a ∈ items, CutsOff write good a) (hgood : ∀ b ∈ items', good b)
    (h : spacing.more level close (items.map write) ++ rest =
      spacing.more level close (items'.map write) ++ rest') : items = items' ∧ rest = rest' := by
  induction items generalizing items' with
  | nil =>
      cases items' with
      | nil => exact ⟨rfl, List.append_cancel_left h⟩
      | cons b items' =>
          rw [List.map_nil, Spacing.more_nil, List.map_cons, Spacing.more_cons, List.append_assoc,
            List.singleton_append, List.cons_append] at h
          exact absurd h (close_ne_comma_cons hclose hcomma)
  | cons a items ih =>
      cases items' with
      | nil =>
          rw [List.map_nil, Spacing.more_nil, List.map_cons, Spacing.more_cons, List.append_assoc,
            List.singleton_append, List.cons_append] at h
          exact absurd h.symm (close_ne_comma_cons hclose hcomma)
      | cons b items' =>
          rw [List.map_cons, List.map_cons, Spacing.more_cons, Spacing.more_cons] at h
          simp only [List.cons_append, List.append_assoc, List.cons.injEq, true_and,
            List.append_cancel_left_eq] at h
          rw [List.forall_mem_cons] at hcuts hgood
          obtain ⟨rfl, hmore⟩ := hcuts.1 b _ _ hgood.1 (stops_more hnumeral _ _)
            (stops_more hnumeral _ _) h
          obtain ⟨rfl, hrest⟩ := ih hcuts.2 hgood.2 hmore
          exact ⟨rfl, hrest⟩

/-- The bracket behind the opening one is told from an item. -/
theorem close_ne_item {b : α} (hclose : isSpace close = false)
    (hstart : ∃ c tail, write b = c :: tail ∧ isSpace c = false ∧ c ≠ close)
    {rest tail : List Char} :
    close :: rest ≠ spacing.before (level + 1) ++ (write b ++ tail) := by
  obtain ⟨c, tail', htext, hspace, hne⟩ := hstart
  intro h
  have hskip := congrArg skipSpace h
  rw [htext, List.cons_append, skipSpace_gap (spacing.space_before _) hspace,
    skipSpace_cons hclose] at hskip
  exact hne (List.cons.inj hskip).1.symm

theorem eq_of_enclosed_append_eq {items items' : List α} {opening : Char}
    (hclose : isSpace close = false) (hnumeral : isNumeral close = false) (hcomma : close ≠ ',')
    (hstart : ∀ b, good b → ∃ c tail, write b = c :: tail ∧ isSpace c = false ∧ c ≠ close)
    (hcuts : ∀ a ∈ items, good a ∧ CutsOff write good a) (hgood : ∀ b ∈ items', good b)
    (h : spacing.enclosed level opening close (items.map write) ++ rest =
      spacing.enclosed level opening close (items'.map write) ++ rest') :
    items = items' ∧ rest = rest' := by
  cases items with
  | nil =>
      cases items' with
      | nil => exact ⟨rfl, List.append_cancel_left h⟩
      | cons b items' =>
          simp only [List.map_nil, List.map_cons, Spacing.enclosed, List.cons_append,
            List.nil_append, List.append_assoc, List.cons.injEq, true_and] at h
          exact absurd h (close_ne_item hclose (hstart b (hgood b List.mem_cons_self)))
  | cons a items =>
      rw [List.forall_mem_cons] at hcuts
      cases items' with
      | nil =>
          simp only [List.map_nil, List.map_cons, Spacing.enclosed, List.cons_append,
            List.nil_append, List.append_assoc, List.cons.injEq, true_and] at h
          exact absurd h.symm (close_ne_item hclose (hstart a hcuts.1.1))
      | cons b items' =>
          rw [List.forall_mem_cons] at hgood
          simp only [List.map_cons, Spacing.enclosed, List.cons_append, List.append_assoc,
            List.cons.injEq, true_and, List.append_cancel_left_eq] at h
          obtain ⟨rfl, hmore⟩ := hcuts.1.2 b _ _ hgood.1 (stops_more hnumeral _ _)
            (stops_more hnumeral _ _) h
          obtain ⟨rfl, hrest⟩ := eq_of_more_append_eq hclose hnumeral hcomma
            (fun a ha => (hcuts.2 a ha).2) hgood.2 hmore
          exact ⟨rfl, hrest⟩

end Parts

/-! ## Values -/

theorem eq_of_writeString_append_eq {s t : String}
    (h : writeString s ++ rest = writeString t ++ rest') : s = t ∧ rest = rest' := by
  rw [writeString_append, writeString_append] at h
  have hread := congrArg readText (List.cons.inj h).2
  rw [readText_flatMap, readText_flatMap] at hread
  simpa using hread

/-- A field is cut off in one way if its value is. -/
theorem cutsOff_field {entry : String × Json}
    (h : CutsOff (spacing.text level) Spelled entry.2) :
    CutsOff (fun entry => spacing.field entry.1 (spacing.text level entry.2))
      (fun entry => Spelled entry.2) entry := by
  intro other rest rest' hother hrest hrest' heq
  simp only [Spacing.field, List.append_assoc, List.cons_append] at heq
  obtain ⟨hname, hvalue⟩ := eq_of_writeString_append_eq heq
  obtain ⟨hjson, htail⟩ := h other.2 rest rest' hother hrest hrest'
    (List.append_cancel_left (List.cons.inj hvalue).2)
  exact ⟨Prod.ext hname hjson, htail⟩

theorem isSpace_eq_false_of_kindAt? {c : Char} {kind : Kind} (h : kindAt? c = some kind) :
    isSpace c = false ∧ c ≠ ']' := by
  constructor
  · rw [← Bool.not_eq_true]
    intro hspace
    simp only [isSpace, Bool.or_eq_true, beq_iff_eq] at hspace
    rcases hspace with ((rfl | rfl) | rfl) | rfl <;> cases (show none = some kind from h)
  · rintro rfl
    cases (show none = some kind from h)

/-- A value starts neither with a space nor with the bracket behind the items of an array. -/
theorem exists_item_start (h : Spelled json) :
    ∃ c tail, spacing.text level json = c :: tail ∧ isSpace c = false ∧ c ≠ ']' := by
  obtain ⟨c, tail, htext, hc⟩ := @exists_text_eq_cons spacing level json h
  exact ⟨c, tail, htext, isSpace_eq_false_of_kindAt? hc⟩

theorem cutsOff_number (ha : Spelled a) (hkind : a.kind = .number) :
    CutsOff (spacing.text level) Spelled a := by
  intro b rest rest' hb hrest hrest' heq
  have hkind' : b.kind = .number := (kind_eq_of_append_eq ha hb heq).symm.trans hkind
  obtain ⟨htext, htail⟩ := eq_of_append_eq heq (isNumeral_of_mem_text ha hkind)
    (isNumeral_of_mem_text hb hkind') hrest hrest'
  exact ⟨eq_of_number_text_eq ha hb hkind hkind' htext, htail⟩

/-- A value is cut off from what follows in one way. -/
theorem cutsOff_text (h : Spelled a) : CutsOff (spacing.text level) Spelled a := by
  induction h generalizing level with
  | null =>
      intro b rest rest' hb _ _ heq
      have hkind := kind_eq_of_append_eq .null hb heq
      cases hb with
      | null => exact ⟨rfl, List.append_cancel_left heq⟩
      | bool b => cases b <;> cases hkind
      | _ => cases hkind
  | bool a =>
      intro b rest rest' hb _ _ heq
      have hkind := kind_eq_of_append_eq (.bool a) hb heq
      cases hb with
      | bool b =>
          cases a <;> cases b
          · exact ⟨rfl, List.append_cancel_left heq⟩
          · cases hkind
          · cases hkind
          · exact ⟨rfl, List.append_cancel_left heq⟩
      | _ => cases a <;> cases hkind
  | integer n => exact cutsOff_number (.integer n) rfl
  | float hfinite => exact cutsOff_number (.float hfinite) rfl
  | string s =>
      intro b rest rest' hb _ _ heq
      have hkind := kind_eq_of_append_eq (.string s) hb heq
      cases hb with
      | string t =>
          obtain ⟨rfl, hrest⟩ := eq_of_writeString_append_eq heq
          exact ⟨rfl, hrest⟩
      | bool b => cases b <;> cases hkind
      | _ => cases hkind
  | array hitems ih =>
      intro b rest rest' hb _ _ heq
      have hkind := kind_eq_of_append_eq (.array hitems) hb heq
      cases hb with
      | array hitems' =>
          rw [Spacing.text, Spacing.text, Spacing.itemTexts_eq_map,
            Spacing.itemTexts_eq_map] at heq
          obtain ⟨rfl, hrest⟩ := eq_of_enclosed_append_eq (by decide) (by decide) (by decide)
            (fun _ => exists_item_start)
            (fun item hitem => ⟨hitems item hitem, ih item hitem⟩) hitems' heq
          exact ⟨rfl, hrest⟩
      | bool b => cases b <;> cases hkind
      | _ => cases hkind
  | object hfields ih =>
      intro b rest rest' hb _ _ heq
      have hkind := kind_eq_of_append_eq (.object hfields) hb heq
      cases hb with
      | object hfields' =>
          rw [Spacing.text, Spacing.text, Spacing.fieldTexts_eq_map,
            Spacing.fieldTexts_eq_map] at heq
          obtain ⟨rfl, hrest⟩ := eq_of_enclosed_append_eq (by decide) (by decide) (by decide)
            (fun entry _ => ⟨'"', _, rfl, by decide, by decide⟩)
            (fun entry hentry => ⟨hfields entry hentry, cutsOff_field (ih entry hentry)⟩)
            hfields' heq
          exact ⟨rfl, hrest⟩
      | bool b => cases b <;> cases hkind
      | _ => cases hkind

theorem eq_of_text_eq (ha : Spelled a) (hb : Spelled b)
    (h : spacing.text level a = spacing.text level b) : a = b :=
  (cutsOff_text ha b [] [] hb stops_nil stops_nil (by rw [h])).1

/-- Values with the same compact text are equal. -/
theorem eq_of_compact_eq (ha : Spelled a) (hb : Spelled b) (h : a.compact = b.compact) : a = b := by
  have htext := String.ofList_inj.1 h
  rw [write_eq a 0, write_eq b 0] at htext
  exact eq_of_text_eq ha hb htext

/-- Values with the same laid-out text are equal. -/
theorem eq_of_pretty_eq (ha : Spelled a) (hb : Spelled b) (h : a.pretty = b.pretty) : a = b := by
  have htext := String.ofList_inj.1 h
  rw [layout_eq, layout_eq] at htext
  exact eq_of_text_eq ha hb htext

end Json

end BehaviorTree
