import BehaviorTree.Json.Forms
import BehaviorTree.Proofs.Position
import BehaviorTree.Proofs.Unambiguous

/-! # Dumps tell trees apart

The form of a node names its type and holds everything there is to it, its memory included. Since
texts tell forms apart, trees with the same dump are the same tree (`dump_tells_tree`), as long as
the floating-point numbers among their arguments are finite. -/

namespace BehaviorTree

open Json

/-! ## Arguments -/

namespace Value

/-- A value that is no infinity, and not a floating-point number that is none. -/
def IsFinite (v : Value) : Prop := ∀ x, v = .float x → x.isFinite = true

variable {v w : Value}

theorem spelled_toJson (h : v.IsFinite) : Spelled v.toJson := by
  cases v with
  | int n => exact .integer _
  | float x => exact .float (h x rfl)
  | str s => exact .string s

theorem eq_of_toJson_eq (h : v.toJson = w.toJson) : v = w := by
  cases v <;> cases w <;> simp only [toJson, reduceCtorEq, integer.injEq,
    Json.float.injEq, string.injEq] at h
  · rw [Int64.toInt_inj.1 h]
  · rw [h]
  · rw [h]

end Value

namespace Kwargs

variable {kwargs other : Kwargs}

theorem spelled_toJson (h : ∀ name v, kwargs.get? name = some v → v.IsFinite) :
    Spelled kwargs.toJson := by
  apply Spelled.object
  rw [List.forall_mem_map]
  exact fun entry hentry =>
    Value.spelled_toJson (h entry.1 entry.2 ((NameMap.mem_entries_iff ..).1 hentry))

theorem eq_of_toJson_eq (h : kwargs.toJson = other.toJson) : kwargs = other := by
  have hentry : Function.Injective fun entry : String × Value => (entry.1, entry.2.toJson) := by
    rintro ⟨name, v⟩ ⟨name', w⟩ heq
    obtain ⟨hname, hvalue⟩ := Prod.mk.inj heq
    exact Prod.ext hname (Value.eq_of_toJson_eq hvalue)
  exact NameMap.ext (List.map_injective_iff.2 hentry (object.inj h))

end Kwargs

/-! ## Nodes -/

/-- The memory of a composite in its form. -/
def Policy.cursorFields : Policy → List (String × Json)
  | .alternate cursor => [("cursor", .integer cursor)]
  | _ => []

theorem Policy.eq_of_kind_eq {policy other : Policy} (hkind : policy.kind = other.kind)
    (hcursor : policy.cursorFields = other.cursorFields) : policy = other := by
  cases policy <;> cases other <;> simp_all [kind, cursorFields]

theorem Role.eq_of_jsonName_eq {role other : Role}
    (h : role.category.jsonName = other.category.jsonName) : role = other := by
  cases role <;> cases other
  · rfl
  · exact absurd h (by decide)
  · exact absurd h (by decide)
  · rfl

namespace Node

theorem toJsonAll_eq_map (nodes : List Node) : toJsonAll nodes = nodes.map toJson := by
  induction nodes with
  | nil => rfl
  | cons node rest ih => rw [toJsonAll, ih, List.map_cons]

theorem toJson_composite (policy : Policy) (nodes : List Node) :
    (Node.composite policy nodes).toJson = .object (("type", .string policy.kind) ::
      ("children", .array (nodes.map toJson)) :: policy.cursorFields) := by
  cases policy <;> simp [toJson, toJsonAll_eq_map, Policy.kind, Policy.cursorFields]

theorem toJson_leaf (role : Role) (bound : Leaf) :
    (Node.leaf role bound).toJson = bound.toJson role.category.jsonName := by
  cases role <;> rfl

/-- All floating-point numbers that the leaves of a tree pass as arguments are finite. -/
def HasFiniteArguments (node : Node) : Prop :=
  ∀ position role bound, node.at? position = some (.leaf role bound) →
    ∀ name v, bound.kwargs.get? name = some v → v.IsFinite

theorem HasFiniteArguments.child {node child : Node} (h : node.HasFiniteArguments)
    (hchild : child ∈ node.children) : child.HasFiniteArguments := by
  intro position role bound hat
  obtain ⟨index, hnode⟩ := exists_at?_of_mem_children hchild hat
  exact h (index :: position) role bound hnode

theorem hasFiniteArguments_leaf {role : Role} {bound : Leaf}
    (h : ∀ name v, bound.kwargs.get? name = some v → v.IsFinite) :
    (Node.leaf role bound).HasFiniteArguments := by
  intro position role' bound' hat
  cases position with
  | nil =>
      cases hat
      exact h
  | cons index position => cases hat

theorem spelled_toJson {node : Node} (h : node.HasFiniteArguments) : Spelled node.toJson := by
  induction node using child_induction with
  | step node ih =>
      have hchildren : ∀ child ∈ node.children, Spelled child.toJson :=
        fun child hchild => ih child hchild (h.child hchild)
      cases node with
      | composite policy nodes =>
          rw [toJson_composite]
          apply Spelled.object
          rw [List.forall_mem_cons, List.forall_mem_cons]
          refine ⟨.string _, .array (List.forall_mem_map.2 hchildren), ?_⟩
          cases policy <;> simp [Policy.cursorFields, Spelled.integer]
      | loop count child =>
          rw [toJson]
          apply Spelled.object
          simp only [List.forall_mem_cons]
          exact ⟨.string _, .integer _, hchildren child (List.mem_singleton_self child),
            List.forall_mem_nil _⟩
      | leaf role bound =>
          rw [toJson_leaf, Leaf.toJson]
          apply Spelled.object
          simp only [List.forall_mem_cons]
          exact ⟨.string _, .string _, Kwargs.spelled_toJson (h [] role bound rfl), .string _,
            List.forall_mem_nil _⟩

theorem eq_of_map_toJson_eq {nodes others : List Node}
    (h : nodes.map toJson = others.map toJson)
    (heach : ∀ node ∈ nodes, ∀ other : Node, node.toJson = other.toJson → node = other) :
    nodes = others := by
  induction nodes generalizing others with
  | nil => exact (List.map_eq_nil_iff.1 h.symm).symm
  | cons node nodes ih =>
      obtain ⟨other, others, rfl, hnode, hnodes⟩ := List.map_eq_cons_iff.1 h.symm
      rw [List.forall_mem_cons] at heach
      rw [heach.1 other hnode.symm, ih hnodes.symm heach.2]

/-- The form of a node holds all there is to it. -/
theorem eq_of_toJson_eq {a b : Node} (h : a.toJson = b.toJson) : a = b := by
  induction a using child_induction generalizing b with
  | step a ih =>
      cases a with
      | composite policy nodes =>
          cases b with
          | composite policy' nodes' =>
              simp only [toJson_composite, object.injEq, List.cons.injEq, Prod.mk.injEq,
                string.injEq, array.injEq, true_and] at h
              obtain ⟨hkind, hnodes, hcursor⟩ := h
              rw [Policy.eq_of_kind_eq hkind hcursor,
                eq_of_map_toJson_eq hnodes fun node hnode other => ih node hnode]
          | loop count child => simp [toJson_composite, toJson] at h
          | leaf role bound => simp [toJson_composite, toJson_leaf, Leaf.toJson] at h
      | loop count child =>
          cases b with
          | composite policy nodes => simp [toJson_composite, toJson] at h
          | loop count' child' =>
              simp only [toJson, object.injEq, List.cons.injEq, Prod.mk.injEq, integer.injEq,
                Int.natCast_inj, UInt32.toNat_inj, true_and, and_true] at h
              rw [h.1, ih child (List.mem_singleton_self child) h.2]
          | leaf role bound => simp [toJson_leaf, toJson, Leaf.toJson] at h
      | leaf role bound =>
          cases b with
          | composite policy nodes => simp [toJson_composite, toJson_leaf, Leaf.toJson] at h
          | loop count child => simp [toJson_leaf, toJson, Leaf.toJson] at h
          | leaf role' bound' =>
              obtain ⟨capability, kwargs, path⟩ := bound
              obtain ⟨capability', kwargs', path'⟩ := bound'
              simp only [toJson_leaf, Leaf.toJson, object.injEq, List.cons.injEq, Prod.mk.injEq,
                string.injEq, true_and, and_true] at h
              obtain ⟨hrole, rfl, hkwargs, rfl⟩ := h
              rw [Kwargs.eq_of_toJson_eq hkwargs, Role.eq_of_jsonName_eq hrole]

end Node

/-- Trees with the same JSON text are equal, their types, counts, cursors, capabilities, arguments
and paths included, as long as their floating-point arguments are finite. In particular the text of
an argument tells its type: no integer is written like a floating-point number or a text. -/
theorem dump_tells_tree {text : Json → String} (htext : text ∈ [Json.pretty, Json.compact]) :
    (∀ a b : Node, a.HasFiniteArguments → b.HasFiniteArguments →
      (text a.toJson = text b.toJson ↔ a = b)) ∧
    ∀ v w : Value, v.IsFinite → w.IsFinite → (text v.toJson = text w.toJson ↔ v = w) := by
  have hspelled : ∀ a b : Json, Spelled a → Spelled b → text a = text b → a = b := by
    intro a b ha hb h
    obtain rfl | rfl : text = Json.pretty ∨ text = Json.compact := by simpa using htext
    · exact eq_of_pretty_eq ha hb h
    · exact eq_of_compact_eq ha hb h
  constructor
  · intro a b ha hb
    refine ⟨fun h => ?_, fun h => by rw [h]⟩
    exact Node.eq_of_toJson_eq
      (hspelled _ _ (Node.spelled_toJson ha) (Node.spelled_toJson hb) h)
  · intro v w hv hw
    refine ⟨fun h => ?_, fun h => by rw [h]⟩
    exact Value.eq_of_toJson_eq
      (hspelled _ _ (Value.spelled_toJson hv) (Value.spelled_toJson hw) h)

/-- An action that waits for the integer 1 is not dumped like one that waits for the floating-point
number 1. -/
theorem dump_tells_tree_waits :
    (Node.leaf .action ⟨"wait", .ofList [("time", .int 1)], "Root"⟩).toJson.pretty ≠
      (Node.leaf .action ⟨"wait", .ofList [("time", .float ⟨0x3ff0000000000000⟩)],
        "Root"⟩).toJson.pretty := by
  have hsingle : ∀ v : Value, v.IsFinite →
      (Node.leaf .action ⟨"wait", .ofList [("time", v)], "Root"⟩).HasFiniteArguments := by
    intro v hv
    apply Node.hasFiniteArguments_leaf
    intro name w hw
    have hentry := (NameMap.mem_entries_iff ..).2 hw
    obtain ⟨-, rfl⟩ := Prod.mk.inj (List.mem_singleton.1 hentry)
    exact hv
  have hint : (Value.int 1).IsFinite := fun x h => nomatch h
  have hfloat : (Value.float ⟨0x3ff0000000000000⟩).IsFinite := by
    rintro x ⟨⟩
    decide
  intro h
  have heq := ((@dump_tells_tree Json.pretty List.mem_cons_self).1 _ _ (hsingle _ hint)
    (hsingle _ hfloat)).1 h
  have hkwargs := congrArg NameMap.entries (Leaf.mk.inj (Node.leaf.inj heq).2).2.1
  exact nomatch (Prod.mk.inj (List.cons.inj hkwargs).1).2

end BehaviorTree
