import BehaviorTree.Outline

/-! # One line for every node

The outline of a tree has a line for every node. Nothing that it writes on a line holds a line feed
but the names in the tree: numbers have none, and texts are quoted. So the lines can be told apart
when the names in the tree have none either. -/

namespace BehaviorTree

/-- A text without a line feed. -/
def OneLine (text : String) : Prop := '\n' ∉ text.toList

instance (text : String) : Decidable (OneLine text) :=
  inferInstanceAs (Decidable ('\n' ∉ text.toList))

section OneLine

variable {first second : String}

theorem OneLine.append (hfirst : OneLine first) (hsecond : OneLine second) :
    OneLine (first ++ second) := by
  unfold OneLine
  rw [String.toList_append, List.mem_append]
  exact not_or.2 ⟨hfirst, hsecond⟩

theorem oneLine_intercalate {parts : List String} (hfirst : OneLine first)
    (hparts : ∀ part ∈ parts, OneLine part) : OneLine (first.intercalate parts) := by
  induction parts with
  | nil =>
      rw [String.intercalate_nil]
      decide
  | cons part rest ih =>
      obtain ⟨hpart, hrest⟩ := List.forall_mem_cons.1 hparts
      cases rest with
      | nil => simpa using hpart
      | cons next rest =>
          rw [String.intercalate_cons_cons]
          exact (hpart.append hfirst).append (ih hrest)

end OneLine

/-! ## Numbers -/

theorem lineFeed_not_mem_toDigits (n : Nat) : '\n' ∉ Nat.toDigits 10 n := by
  intro h
  have hdigit := Nat.isDigit_of_mem_toDigits (by decide) (by decide) h
  exact absurd hdigit (by decide)

theorem oneLine_toString_nat (n : Nat) : OneLine (toString n) := by
  show '\n' ∉ n.repr.toList
  rw [Nat.toList_repr]
  exact lineFeed_not_mem_toDigits n

theorem oneLine_toString_int (n : Int) : OneLine (toString n) := by
  show OneLine n.repr
  rw [Int.repr_eq_if]
  split
  · exact oneLine_toString_nat _
  · exact OneLine.append (by decide) (oneLine_toString_nat _)

namespace Binary64

theorem lineFeed_not_mem_split (d : Decimal) : '\n' ∉ d.split.1 ∧ '\n' ∉ d.split.2 := by
  have hdigits := lineFeed_not_mem_toDigits d.digits
  unfold Decimal.split
  dsimp only
  split
  · simp [hdigits]
  · split
    · rw [List.splitAt_eq]
      exact ⟨fun h => hdigits (List.mem_of_mem_take h), fun h => hdigits (List.mem_of_mem_drop h)⟩
    · simp [hdigits]

theorem lineFeed_not_mem_plain (d : Decimal) : '\n' ∉ d.plain := by
  obtain ⟨hwhole, hfraction⟩ := lineFeed_not_mem_split d
  unfold Decimal.plain
  split
  · rename_i whole h
    rw [h] at hwhole
    exact hwhole
  · rename_i whole fraction hne h
    rw [h] at hwhole hfraction
    simp [hwhole, hfraction]

theorem oneLine_plainText (x : Binary64) : OneLine x.plainText := by
  have hsigned : ∀ (negative : Bool) (text : List Char), '\n' ∉ text →
      OneLine (String.ofList (if negative then '-' :: text else text)) := by
    intro negative text h
    unfold OneLine
    rw [String.toList_ofList]
    cases negative <;> simp [h]
  unfold plainText textWith
  split
  · decide
  · exact hsigned _ _ (by decide)
  · exact hsigned _ _ (lineFeed_not_mem_plain _)
  · exact hsigned _ _ (lineFeed_not_mem_plain _)

end Binary64

/-! ## Labels -/

theorem Value.oneLine_display (value : Value) : OneLine value.display := by
  cases value with
  | int n => exact oneLine_toString_int _
  | float x => exact x.oneLine_plainText
  | str s => exact Text.lineFeed_not_mem_quoted s

theorem Kwargs.oneLine_outline {kwargs : Kwargs} (h : ∀ name ∈ kwargs.names, OneLine name) :
    OneLine kwargs.outline := by
  unfold outline
  split
  · decide
  · apply OneLine.append
    · apply OneLine.append
      · decide
      · apply oneLine_intercalate
        · decide
        · intro part hpart
          obtain ⟨⟨name, value⟩, hentry, rfl⟩ := List.mem_map.1 hpart
          have hname := h name (List.mem_map.2 ⟨(name, value), hentry, rfl⟩)
          exact (hname.append (by decide)).append value.oneLine_display
    · decide

namespace Node

/-- The names that a node itself brings into an outline. -/
def ownNames : Node → List String
  | .leaf _ bound => bound.capability :: bound.kwargs.names
  | _ => []

/-- The names of capabilities and keywords in a tree. -/
def names (root : Node) : List String := (root.preorder 0).flatMap fun (_, node) => node.ownNames

theorem oneLine_label {node : Node} (h : ∀ name ∈ node.ownNames, OneLine name) :
    OneLine node.label := by
  cases node with
  | composite policy children =>
      unfold OneLine label Policy.kind
      cases policy <;> simp
  | loop count child => exact OneLine.append (by decide) (oneLine_toString_nat _)
  | leaf role bound =>
      obtain ⟨hcapability, hkwargs⟩ := List.forall_mem_cons.1 h
      have hmark : ∀ mark : String, OneLine mark →
          OneLine (mark ++ bound.capability ++ bound.kwargs.outline) := fun mark hmark =>
        (hmark.append hcapability).append (Kwargs.oneLine_outline hkwargs)
      cases role with
      | condition => exact hmark "? " (by decide)
      | action => exact hmark "! " (by decide)

theorem oneLine_indentation (depth : Nat) : OneLine (indentation depth) := by
  unfold OneLine indentation
  rw [String.toList_ofList]
  intro h
  exact absurd (List.eq_of_mem_replicate h) (by decide)

/-- The lines of an outline are lines if the names in the tree have no line feed. -/
theorem oneLine_of_mem_outlineLines {root : Node} (h : ∀ name ∈ root.names, OneLine name) :
    ∀ line ∈ root.outlineLines, OneLine line := by
  intro line hline
  obtain ⟨⟨depth, node⟩, hmem, rfl⟩ := List.mem_map.1 hline
  apply OneLine.append (oneLine_indentation depth)
  apply oneLine_label
  intro name hname
  exact h name (List.mem_flatMap.2 ⟨(depth, node), hmem, hname⟩)

end Node

end BehaviorTree
