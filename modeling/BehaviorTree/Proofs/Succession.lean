import BehaviorTree.Proofs.Activation

/-! # The activations of one node

The node at a position below an activation can be activated any number of times during it
(`Activation.allAt`). Nothing else changes that node, so each of its activations finds it as the one
before left it, and the last one leaves it as it is in the end (`Activation.handedOn_allAt`). What
one activation of a node does to it therefore says what any number of them do, wherever the node
stands and however its activations are spread. -/

namespace BehaviorTree

/-- Each of the events finds what the one before it left, the first one finds `before`, and the last
one leaves `after`. -/
def HandedOn {α β : Type} (found left : α → β) (before : β) : List α → β → Prop
  | [], after => after = before
  | event :: rest, after => found event = before ∧ HandedOn found left (left event) rest after

theorem handedOn_append {α β : Type} {found left : α → β} {before after : β} {first second : List α}
    {between : β} (hfirst : HandedOn found left before first between)
    (hsecond : HandedOn found left between second after) :
    HandedOn found left before (first ++ second) after := by
  induction first generalizing before with
  | nil =>
      obtain rfl : between = before := hfirst
      exact hsecond
  | cons event rest ih => exact ⟨hfirst.1, ih hfirst.2⟩

/-! ## Calls to one child -/

/-- If the entries of a list are numbered upwards from `start`, the entry with number `start + i` is
the one at index `i`. -/
theorem filter_eq_toList_getElem? {α : Type} {number : α → Nat} {list : List α} {start : Nat}
    (h : list.map number = List.range' start list.length) (i : Nat) :
    list.filter (number · = start + i) = list[i]?.toList := by
  induction list generalizing start i with
  | nil => rfl
  | cons first rest ih =>
      rw [List.map_cons, List.length_cons, List.range'_succ] at h
      obtain ⟨hfirst, hrest⟩ := List.cons.inj h
      cases i with
      | zero =>
          have hlater : ∀ entry ∈ rest, ¬ number entry = start := by
            intro entry hentry
            have hmem : number entry ∈ List.range' (start + 1) rest.length :=
              hrest ▸ List.mem_map_of_mem hentry
            have hle := (List.mem_range'_1.1 hmem).1
            omega
          rw [Nat.add_zero, List.filter_cons_of_pos (by simpa using hfirst),
            List.filter_eq_nil_iff.2 (by simpa using hlater)]
          rfl
      | succ i =>
          have hne : ¬ number first = start + (i + 1) := by omega
          rw [List.filter_cons_of_neg (by simpa using hne), List.getElem?_cons_succ, ← ih hrest i,
            Nat.add_assoc, Nat.add_comm 1 i]

section Calls

variable {ω τ : Type} {activate : τ → ω → Step ω τ} {before after : ω} {calls : List (Call ω τ)}

/-- If items are called in order, each is what its call leaves, if it has one, and else as it
was. -/
theorem InOrder.handedOn {items left : List τ} (h : InOrder activate items before calls left after)
    {i : Nat} {item : τ} (hitem : items[i]? = some item) :
    ∃ item', left[i]? = some item' ∧
      HandedOn Call.item (fun call => (call.step activate).state) item
        (calls.filter (·.index = i)) item' := by
  have hcalls : calls.filter (·.index = i) = calls[i]?.toList := by
    have hindex : calls.map (·.index) = List.range' 0 calls.length := by
      rw [h.index, List.range_eq_range']
    simpa using filter_eq_toList_getElem? hindex i
  rw [hcalls, h.left]
  cases hcall : calls[i]? with
  | none =>
      -- The calls end before item `i`, which is therefore among those that are left as they were.
      have hlength : calls.length ≤ i := List.getElem?_eq_none_iff.1 hcall
      refine ⟨item, ?_, rfl⟩
      rw [List.getElem?_append_right (by simpa using hlength), List.getElem?_drop, ← hitem]
      congr 1
      simp
      omega
  | some call =>
      have hlength : i < calls.length := (List.getElem?_eq_some_iff.1 hcall).1
      have hcalled : items[call.index]? = some call.item :=
        h.getElem?_of_mem (List.mem_of_getElem? hcall)
      have hindex : call.index = i := by
        have hmem : call ∈ calls.filter (·.index = i) := by
          rw [hcalls, hcall]
          exact List.mem_singleton_self call
        simpa using (List.mem_filter.1 hmem).2
      rw [hindex, hitem] at hcalled
      refine ⟨(call.step activate).state, ?_, ?_, rfl⟩
      · rw [List.getElem?_append_left (by simpa using hlength), List.getElem?_map, hcall]
        rfl
      · exact (Option.some.inj hcalled).symm

/-- A repetition hands its item on from each call to the next. -/
theorem Repeats.handedOn {item left : τ} (h : Repeats activate item before calls left after) :
    HandedOn Call.item (fun call => (call.step activate).state) item
      (calls.filter (·.index = 0)) left := by
  induction calls generalizing item before with
  | nil => exact h.1
  | cons call rest ih =>
      obtain ⟨hindex, hitem, -, hrest⟩ := h
      rw [List.filter_cons_of_pos (by simpa using hindex)]
      exact ⟨hitem, ih hrest⟩

end Calls

namespace Step

variable {ω τ : Type} {activate : τ → ω → Step ω τ}

theorem handedOn_visitBy (policy : Policy) {items : List τ} (world : ω) {i : Nat} {item : τ}
    (hitem : items[i]? = some item) :
    ∃ item', (visitBy activate policy items world).state.2[i]? = some item' ∧
      HandedOn Call.item (fun call => (call.step activate).state) item
        ((callsBy activate policy items world).filter (·.index = i)) item' := by
  cases policy with
  | selector =>
      rw [callsBy_selector]
      exact (inOrder_visit .failure).handedOn hitem
  | sequence =>
      rw [callsBy_sequence]
      exact (inOrder_visit .success).handedOn hitem
  | parallel =>
      rw [callsBy_parallel]
      exact (inOrder_visit .failure).handedOn hitem
  | alternate cursor =>
      rw [visitBy, visitAt]
      cases hcalled : items[cursor]? with
      | none =>
          rw [callsBy_alternate_none activate hcalled]
          exact ⟨item, hitem, rfl⟩
      | some called =>
          rw [callsBy_alternate activate hcalled]
          by_cases hcursor : cursor = i
          · subst hcursor
            obtain rfl : called = item := Option.some.inj (hcalled.symm.trans hitem)
            have hlength : cursor < items.length := (List.getElem?_eq_some_iff.1 hitem).1
            refine ⟨(activate called world).state, List.getElem?_set_self hlength, ?_⟩
            rw [List.filter_cons_of_pos (by simp), List.filter_nil]
            exact ⟨rfl, rfl⟩
          · refine ⟨item, ?_, ?_⟩
            · exact (List.getElem?_set_ne hcursor).trans hitem
            · rw [List.filter_cons_of_neg (by simpa using hcursor), List.filter_nil]
              exact rfl

end Step

namespace Activation

variable {ω : Type} {run : LeafRun ω}

/-- A child is handed on through the calls to it. -/
theorem handedOn_calls (run : LeafRun ω) (a : Activation ω) {i : Nat} {child : Node}
    (hchild : a.node.children[i]? = some child) :
    ∃ child', (a.step run).state.children[i]? = some child' ∧
      HandedOn Call.item (fun call => (call.step (Node.activate run)).state) child
        ((a.calls run).filter (·.index = i)) child' := by
  obtain ⟨position, node, world⟩ := a
  cases node with
  | leaf role bound => cases hchild
  | loop count only =>
      obtain ⟨hlt, hget⟩ := List.getElem?_eq_some_iff.1 hchild
      obtain rfl : i = 0 := Nat.lt_one_iff.1 hlt
      obtain rfl : only = child := hget
      rw [calls_loop, Step.callsRepeated_eq, step, Node.activate_loop]
      exact ⟨_, rfl, Step.repeats_repeatedCalls.handedOn⟩
  | composite policy children =>
      rw [calls_composite, step, Node.activate_composite]
      exact Step.handedOn_visitBy policy world hchild

/-! ## Activations at a position -/

/-- The activations of the node at a position below that of an activation which take place during
it, in order. -/
def allAt (run : LeafRun ω) (a : Activation ω) (below : Position) : List (Activation ω) :=
  (a.all run).filter (·.position = a.position ++ below)

/-- Whatever takes place during an activation is at its position or below. -/
theorem position_prefix (root : Activation ω) :
    ∀ a ∈ root.all run, root.position <+: a.position := by
  refine all_induction ?_ (List.prefix_refl root.position)
  intro a hprefix call hcall
  exact hprefix.trans (List.prefix_append a.position [call.index])

theorem filter_all_eq_nil {a : Activation ω} {position : Position} (h : ¬ a.position <+: position) :
    (a.all run).filter (·.position = position) = [] := by
  refine List.filter_eq_nil_iff.2 fun b hb heq => h ?_
  rw [← of_decide_eq_true heq]
  exact position_prefix a b hb

theorem allAt_nil (a : Activation ω) : a.allAt run [] = [a] := by
  -- The other activations are of children or below, so their positions are longer.
  have hcalls : ∀ call ∈ a.calls run,
      ((a.child call).all run).filter (·.position = a.position) = [] := by
    intro call _
    refine filter_all_eq_nil fun hprefix => ?_
    have hlength : (a.position ++ [call.index]).length ≤ a.position.length := hprefix.length_le
    rw [List.length_append, List.length_singleton] at hlength
    omega
  rw [allAt, List.append_nil, all_eq, List.filter_cons_of_pos (by simp), List.filter_flatMap,
    List.flatMap_eq_nil_iff.2 hcalls]

theorem allAt_cons (a : Activation ω) (i : Nat) (rest : Position) :
    a.allAt run (i :: rest) =
      ((a.calls run).filter (·.index = i)).flatMap fun call => (a.child call).allAt run rest := by
  rw [allAt, all_eq, List.filter_cons_of_neg (by simp), List.filter_flatMap]
  induction a.calls run with
  | nil => rfl
  | cons call calls ih =>
      rw [List.flatMap_cons, ih]
      by_cases hindex : call.index = i
      · have hposition : a.position ++ i :: rest = (a.child call).position ++ rest := by
          simp [child, hindex]
        rw [List.filter_cons_of_pos (by simpa using hindex), List.flatMap_cons, hposition, allAt]
      · have hnone :
            ((a.child call).all run).filter (·.position = a.position ++ i :: rest) = [] := by
          refine filter_all_eq_nil fun hprefix => hindex ?_
          rw [child, List.prefix_append_right_inj, List.cons_prefix_cons] at hprefix
          exact hprefix.1
        rw [List.filter_cons_of_neg (by simpa using hindex), hnone, List.nil_append]

/-- The activations of a child are the calls to it of the activations of its parent. -/
theorem allAt_concat (a : Activation ω) (below : Position) (i : Nat) :
    a.allAt run (below ++ [i]) = (a.allAt run below).flatMap fun parent =>
      ((parent.calls run).filter (·.index = i)).map parent.child := by
  induction below generalizing a with
  | nil =>
      rw [List.nil_append, allAt_cons, allAt_nil, List.flatMap_singleton]
      simp only [allAt_nil]
      exact List.map_eq_flatMap.symm
  | cons index rest ih =>
      rw [List.cons_append, allAt_cons, allAt_cons, List.flatMap_assoc]
      exact congrArg (List.flatMap · _) (funext fun call => ih (a.child call))

/-- A node is handed on through its activations. -/
theorem handedOn_allAt (run : LeafRun ω) (a : Activation ω) {below : Position} {node : Node}
    (hnode : a.node.at? below = some node) :
    ∃ node', (a.step run).state.at? below = some node' ∧
      HandedOn Activation.node (fun b => (b.step run).state) node (a.allAt run below) node' := by
  induction below generalizing a node with
  | nil =>
      obtain rfl : a.node = node := Option.some.inj hnode
      rw [allAt_nil]
      exact ⟨_, rfl, rfl, rfl⟩
  | cons i rest ih =>
      rw [Node.at?_cons, Option.bind_eq_some_iff] at hnode
      obtain ⟨child, hchild, hnode⟩ := hnode
      obtain ⟨child', hchild', hcalls⟩ := handedOn_calls run a hchild
      rw [allAt_cons, Node.at?_cons, hchild', Option.bind_some]
      -- The child is handed on from call to call, and the node below it within each call.
      clear hchild hchild'
      generalize (a.calls run).filter (·.index = i) = calls at hcalls
      induction calls generalizing child node with
      | nil =>
          obtain rfl : child' = child := hcalls
          exact ⟨node, hnode, rfl⟩
      | cons call calls ihCalls =>
          obtain ⟨hitem, hcalls⟩ := hcalls
          rw [← hitem] at hnode
          obtain ⟨between, hbetween, hfirst⟩ := ih (a.child call) hnode
          obtain ⟨node', hnode', hlater⟩ := ihCalls _ hbetween hcalls
          exact ⟨node', hnode', handedOn_append hfirst hlater⟩

end Activation

end BehaviorTree
