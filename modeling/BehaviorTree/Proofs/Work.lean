import Mathlib.Algebra.Group.Action.Defs
import Mathlib.Algebra.Order.BigOperators.Group.List
import Mathlib.Algebra.Order.Ring.Nat
import Mathlib.Data.List.Flatten
import BehaviorTree.Proofs.Observation

/-! # The work of a tick

An activation calls each child of a composite at most once and the child of a loop at most as often
as the loop counts, and it calls the children of a composite in their order (`Step.sublist_callsBy`,
`Activation.length_calls_filter_le`). So the node at a position is activated at most as often as the
product of the counts of the loops above it says, and the activations of a tick are limited by a
number that depends on the tree alone: whatever the agent does, the tick comes to an end. Where
there is no loop, the leaves that are evaluated come in the order in which they are written, none of
them twice. -/

namespace BehaviorTree

namespace Node

/-! ## Loops above a node -/

def count? : Node → Option Nat
  | .loop count _ => some count.toNat
  | _ => none

/-- The counts of the loops above the node at a position, from the root down. -/
def countsAbove (node : Node) : Position → List Nat
  | [] => []
  | index :: rest => node.count?.toList ++
      match node.children[index]? with
      | none => []
      | some child => child.countsAbove rest

/-- No node of a tree is a loop. -/
def HasNoLoop (node : Node) : Prop :=
  ∀ (position : Position) (count : UInt32) (child : Node),
    node.at? position ≠ some (.loop count child)

theorem HasNoLoop.child {node child : Node} (h : node.HasNoLoop) (hchild : child ∈ node.children) :
    child.HasNoLoop := by
  intro position count below hat
  obtain ⟨index, hnode⟩ := exists_at?_of_mem_children hchild hat
  exact h (index :: position) count below hnode

theorem count?_fresh (node : Node) : node.fresh.count? = node.count? := by
  cases node <;> rfl

theorem prod_countsAbove_cons {node child : Node} {index : Nat} {rest : Position}
    (hchild : node.children[index]? = some child) :
    (node.countsAbove (index :: rest)).prod =
      node.count?.getD 1 * (child.countsAbove rest).prod := by
  simp only [countsAbove, hchild, List.prod_append]
  cases node.count? <;> simp

/-- The loops above a position do not change. -/
theorem countsAbove_fresh (node : Node) (position : Position) :
    node.fresh.countsAbove position = node.countsAbove position := by
  induction position generalizing node with
  | nil => rfl
  | cons index rest ih =>
      rw [countsAbove, countsAbove, count?_fresh, children_fresh, List.getElem?_map]
      cases node.children[index]? with
      | none => rfl
      | some child => exact congrArg _ (ih child)

/-! ## Leaves in the order in which they are written -/

mutual

/-- The leaves of a tree in the order in which they are written, with their positions. The root has
the position given. -/
def leavesAt (position : Position) : Node → List (Position × Role × Leaf)
  | .composite _ children => leavesFrom position 0 children
  | .loop _ child => child.leavesAt (position ++ [0])
  | .leaf role bound => [(position, role, bound)]

/-- The leaves of the children of the node at a position from the one with this index on. -/
def leavesFrom (position : Position) (index : Nat) : List Node → List (Position × Role × Leaf)
  | [] => []
  | child :: rest => child.leavesAt (position ++ [index]) ++ leavesFrom position (index + 1) rest

end

theorem leavesFrom_eq_flatMap (position : Position) (index : Nat) (nodes : List Node) :
    leavesFrom position index nodes =
      (nodes.zipIdx index).flatMap fun entry => entry.1.leavesAt (position ++ [entry.2]) := by
  induction nodes generalizing index with
  | nil => rfl
  | cons node rest ih => rw [leavesFrom, List.zipIdx_cons, List.flatMap_cons, ih]

/-- The leaves of an inner node are those of its children. -/
theorem leavesAt_eq_flatMap {node : Node} (position : Position)
    (h : ∀ role bound, node ≠ .leaf role bound) :
    node.leavesAt position =
      node.children.zipIdx.flatMap fun entry => entry.1.leavesAt (position ++ [entry.2]) := by
  cases node with
  | leaf role bound => exact absurd rfl (h role bound)
  | loop count child => simp [leavesAt, children]
  | composite policy nodes => exact leavesFrom_eq_flatMap position 0 nodes

theorem prefix_of_mem_leavesAt {node : Node} {position : Position}
    {entry : Position × Role × Leaf} (h : entry ∈ node.leavesAt position) :
    position <+: entry.1 := by
  induction node using child_induction generalizing position with
  | step node ih =>
      by_cases hleaf : ∃ role bound, node = .leaf role bound
      · obtain ⟨role, bound, rfl⟩ := hleaf
        rw [leavesAt, List.mem_singleton] at h
        subst h
        exact List.prefix_refl position
      · rw [leavesAt_eq_flatMap position fun role bound heq => hleaf ⟨role, bound, heq⟩,
          List.mem_flatMap] at h
        obtain ⟨⟨child, index⟩, hchild, h⟩ := h
        have hmem : child ∈ node.children :=
          List.mem_of_getElem? (List.mem_zipIdx_iff_getElem?.1 hchild)
        exact (List.prefix_append position [index]).trans (ih child hmem h)

/-- The order of the leaves is that of their positions, and no position comes twice. -/
theorem pairwise_leavesAt (node : Node) (position : Position) :
    (node.leavesAt position).Pairwise fun first second => first.1 < second.1 := by
  induction node using child_induction generalizing position with
  | step node ih =>
      by_cases hleaf : ∃ role bound, node = .leaf role bound
      · obtain ⟨role, bound, rfl⟩ := hleaf
        exact List.pairwise_singleton _ _
      · rw [leavesAt_eq_flatMap position fun role bound heq => hleaf ⟨role, bound, heq⟩,
          List.pairwise_flatMap]
        constructor
        · rintro ⟨child, index⟩ hchild
          exact ih child (List.mem_of_getElem? (List.mem_zipIdx_iff_getElem?.1 hchild)) _
        · -- Leaves of different children: their positions differ at the indices of the children.
          have hindices : (node.children.zipIdx.map Prod.snd).Pairwise (· < ·) := by
            rw [List.zipIdx_map_snd]
            exact List.pairwise_lt_range'
          refine (List.pairwise_map.1 hindices).imp ?_
          rintro ⟨child, i⟩ ⟨child', j⟩ hlt entry hentry entry' hentry'
          obtain ⟨rest, hrest⟩ := prefix_of_mem_leavesAt hentry
          obtain ⟨rest', hrest'⟩ := prefix_of_mem_leavesAt hentry'
          rw [← hrest, ← hrest', List.append_assoc, List.append_assoc]
          exact List.append_left_lt (List.cons_lt_cons_iff.2 (.inl hlt))

mutual

/-- How many activations a tick of a tree can make at most. -/
def work : Node → Nat
  | .composite _ children => workAll children + 1
  | .loop count child => count.toNat * child.work + 1
  | .leaf _ _ => 1

/-- How many activations several trees can make at most, each being ticked once. -/
def workAll : List Node → Nat
  | [] => 0
  | node :: rest => node.work + workAll rest

end

theorem workAll_eq_sum (nodes : List Node) : workAll nodes = (nodes.map work).sum := by
  induction nodes with
  | nil => rfl
  | cons node rest ih => rw [workAll, List.map_cons, List.sum_cons, ih]

mutual

theorem work_fresh : ∀ node : Node, node.fresh.work = node.work
  | .composite _ children => by simp [fresh, work, workAll_fresh children]
  | .loop _ child => by simp [fresh, work, work_fresh child]
  | .leaf _ _ => rfl

theorem workAll_fresh : ∀ nodes : List Node, workAll (freshAll nodes) = workAll nodes
  | [] => rfl
  | node :: rest => by simp [freshAll, workAll, work_fresh node, workAll_fresh rest]

end

end Node

/-! ## Calls in order and in number -/

namespace Step

variable {ω τ : Type} (activate : τ → ω → Step ω τ)

theorem prefix_visitCalls (stop : Option Status) (index : Nat) (items : List τ) (world : ω) :
    (visitCalls activate stop index items world).map (fun call => (call.item, call.index)) <+:
      items.zipIdx index := by
  induction items generalizing index world with
  | nil => exact List.nil_prefix
  | cons item rest ih =>
      by_cases h : Stops stop (activate item world).outcome
      · rw [visitCalls_cons_of_stops h, List.zipIdx_cons]
        exact List.prefix_append [(item, index)] _
      · obtain ⟨status, houtcome, hstop⟩ := not_stops_iff.1 h
        rw [visitCalls_cons_of_goes_on houtcome hstop, List.zipIdx_cons, List.map_cons]
        exact (List.prefix_cons_inj _).2 (ih _ _)

/-- The calls that a visit by a policy makes are of different items, in the order of the items, and
each of an item as it was. -/
theorem sublist_callsBy (policy : Policy) (items : List τ) (world : ω) :
    ((callsBy activate policy items world).map fun call => (call.item, call.index)).Sublist
      items.zipIdx := by
  cases policy with
  | selector =>
      rw [callsBy_selector]
      exact (prefix_visitCalls activate _ 0 items world).sublist
  | sequence =>
      rw [callsBy_sequence]
      exact (prefix_visitCalls activate _ 0 items world).sublist
  | parallel =>
      rw [callsBy_parallel]
      exact (prefix_visitCalls activate _ 0 items world).sublist
  | alternate cursor =>
      cases hitem : items[cursor]? with
      | none =>
          rw [callsBy_alternate_none activate hitem]
          exact List.nil_sublist _
      | some item =>
          rw [callsBy_alternate activate hitem]
          exact List.singleton_sublist.2 (List.mem_zipIdx_iff_getElem?.2 hitem)

theorem length_filter_callsBy_le (policy : Policy) (items : List τ) (world : ω) (i : Nat) :
    ((callsBy activate policy items world).filter (·.index = i)).length ≤ 1 := by
  have hnumbered : items.zipIdx.filter (·.2 = i) = items.zipIdx[i]?.toList := by
    have hindices : items.zipIdx.map Prod.snd = List.range' 0 items.zipIdx.length := by
      rw [List.zipIdx_map_snd, List.length_zipIdx]
    simpa using filter_eq_toList_getElem? hindices i
  have hsublist := (sublist_callsBy activate policy items world).filter (·.2 = i)
  rw [hnumbered, List.filter_map] at hsublist
  calc ((callsBy activate policy items world).filter (·.index = i)).length
      ≤ items.zipIdx[i]?.toList.length := by simpa [Function.comp_def] using hsublist.length_le
    _ ≤ 1 := by cases items.zipIdx[i]? <;> simp

theorem length_repeatedCalls_le (count : Nat) (item : τ) (world : ω) :
    (repeatedCalls activate count item world).length ≤ count := by
  have h : EndsAtFirst (· ≠ .ok .success) count
      (outcomes activate (repeatedCalls activate count item world)) := endsAtFirst_repeatedCalls
  simpa [outcomes] using h.length_le

end Step

namespace Activation

variable {ω : Type} {run : LeafRun ω}

/-- How often a child can be called: by a loop up to its count, by a composite once. -/
theorem length_calls_filter_le (a : Activation ω) (i : Nat) :
    ((a.calls run).filter (·.index = i)).length ≤ a.node.count?.getD 1 := by
  obtain ⟨position, node, world⟩ := a
  cases node with
  | leaf role bound => exact Nat.zero_le 1
  | loop count child =>
      rw [calls_loop, Step.callsRepeated_eq]
      exact (List.length_filter_le _ _).trans (Step.length_repeatedCalls_le _ _ _ _)
  | composite policy children => exact Step.length_filter_callsBy_le _ policy children world i

/-- What does not depend on the cursors is the same for a child and for all calls to it. -/
theorem eq_of_mem_calls {α : Type} (f : Node → α) (hf : ∀ node : Node, f node.fresh = f node)
    {a : Activation ω} {call : Call ω Node} (hcall : call ∈ a.calls run) {child : Node}
    (hchild : a.node.children[call.index]? = some child) : f call.item = f child := by
  obtain ⟨child', hchild', hkept⟩ := exists_child_of_mem_calls hcall
  obtain rfl : child' = child := Option.some.inj (hchild'.symm.trans hchild)
  have hitem : call.item.fresh = child'.fresh :=
    hkept (fun node => node.fresh = child'.fresh)
      (fun node world h => by rwa [Node.fresh_activate]) rfl
  rw [← hf call.item, hitem, hf]

/-! ## How often a node is activated -/

/-- The node at a position below an activation is activated during it at most as often as the
product of the counts of the loops above it says. -/
theorem length_allAt_le (a : Activation ω) (below : Position) :
    (a.allAt run below).length ≤ (a.node.countsAbove below).prod := by
  induction below generalizing a with
  | nil => simp [allAt_nil, Node.countsAbove]
  | cons i rest ih =>
      rw [allAt_cons, List.length_flatMap]
      cases hchild : a.node.children[i]? with
      | none =>
          -- There is no such child, so there are no calls to it.
          have hnone : (a.calls run).filter (·.index = i) = [] := by
            refine List.filter_eq_nil_iff.2 fun call hcall hindex => ?_
            obtain ⟨child, hsome, -⟩ := exists_child_of_mem_calls hcall
            rw [of_decide_eq_true hindex, hchild] at hsome
            cases hsome
          simp [hnone]
      | some child =>
          have heach : ∀ n ∈ ((a.calls run).filter (·.index = i)).map
              fun call => ((a.child call).allAt run rest).length,
              n ≤ (child.countsAbove rest).prod := by
            intro n hn
            obtain ⟨call, hcall, rfl⟩ := List.mem_map.1 hn
            rw [List.mem_filter] at hcall
            have hindex : call.index = i := of_decide_eq_true hcall.2
            have hsame : call.item.countsAbove rest = child.countsAbove rest :=
              eq_of_mem_calls (·.countsAbove rest) (·.countsAbove_fresh rest) hcall.1
                (hindex ▸ hchild)
            rw [← hsame]
            exact ih (a.child call)
          calc (((a.calls run).filter (·.index = i)).map
                fun call => ((a.child call).allAt run rest).length).sum
              ≤ ((a.calls run).filter (·.index = i)).length * (child.countsAbove rest).prod := by
                simpa using List.sum_le_card_nsmul _ _ heach
            _ ≤ a.node.count?.getD 1 * (child.countsAbove rest).prod :=
                Nat.mul_le_mul_right _ (length_calls_filter_le a i)
            _ = (a.node.countsAbove (i :: rest)).prod := (Node.prod_countsAbove_cons hchild).symm

/-- What the calls of an activation can make together is limited by its node. -/
theorem sum_work_calls_lt (a : Activation ω) :
    ((a.calls run).map fun call => call.item.work).sum < a.node.work := by
  obtain ⟨position, node, world⟩ := a
  cases node with
  | leaf role bound => exact Nat.zero_lt_one
  | loop count child =>
      have heach : ∀ n ∈ ((Activation.mk position (.loop count child) world).calls run).map
          fun call => call.item.work, n ≤ child.work := by
        intro n hn
        obtain ⟨call, hcall, rfl⟩ := List.mem_map.1 hn
        obtain ⟨child', hchild', -⟩ := exists_child_of_mem_calls hcall
        obtain rfl : child' = child := List.mem_singleton.1 (List.mem_of_getElem? hchild')
        exact le_of_eq (eq_of_mem_calls Node.work Node.work_fresh hcall hchild')
      have hsum := List.sum_le_card_nsmul _ _ heach
      have hlength := Step.length_repeatedCalls_le (Node.activate run) count.toNat child world
      rw [List.length_map, calls_loop, Step.callsRepeated_eq, smul_eq_mul] at hsum
      rw [calls_loop, Step.callsRepeated_eq, Node.work]
      exact Nat.lt_succ_of_le (hsum.trans (Nat.mul_le_mul_right _ hlength))
  | composite policy children =>
      have hsublist := (Step.sublist_callsBy (Node.activate run) policy children world).map
        fun entry => entry.1.work
      rw [List.map_map] at hsublist
      have hsum := hsublist.sum_le_sum fun _ _ => Nat.zero_le _
      have hchildren : (children.zipIdx.map fun entry => entry.1.work).sum =
          Node.workAll children := by
        rw [Node.workAll_eq_sum, ← List.zipIdx_map_fst 0 children, List.map_map,
          List.zipIdx_map_fst]
        rfl
      rw [hchildren] at hsum
      exact Nat.lt_succ_of_le hsum

/-- The activations during an activation are limited by its node. -/
theorem length_all_le (a : Activation ω) : (a.all run).length ≤ a.node.work := by
  induction hheight : a.node.height using Nat.strongRecOn generalizing a with
  | ind height ih =>
      have heach : ∀ call ∈ a.calls run, ((a.child call).all run).length ≤ call.item.work :=
        fun call hcall => ih _ (hheight ▸ height_lt_of_mem_calls hcall) (a.child call) rfl
      rw [all_eq, List.length_cons, List.length_flatMap]
      exact (Nat.succ_le_succ (List.sum_le_sum heach)).trans (sum_work_calls_lt a)

/-! ## The order in which leaves are evaluated -/

/-- The leaf that an activation is of, with its position. -/
def leafAt? (a : Activation ω) : Option (Position × Role × Leaf) :=
  a.leaf?.map fun (role, leaf, _) => (a.position, role, leaf)

/-- Without loops, the leaves that are activated are leaves of the tree in the order in which they
are written. -/
theorem sublist_leavesAt (a : Activation ω) (h : a.node.HasNoLoop) :
    ((a.all run).filterMap leafAt?).Sublist (a.node.leavesAt a.position) := by
  induction hheight : a.node.height using Nat.strongRecOn generalizing a with
  | ind height ih =>
      have hcall : ∀ call ∈ a.calls run, call.item.HasNoLoop →
          (((a.child call).all run).filterMap leafAt?).Sublist
            (call.item.leavesAt (a.position ++ [call.index])) :=
        fun call hmem hitem => ih _ (hheight ▸ height_lt_of_mem_calls hmem) (a.child call) hitem rfl
      rw [all_eq, filterMap_cons_eq_append, List.filterMap_flatMap]
      clear ih
      obtain ⟨position, node, world⟩ := a
      cases node with
      | loop count child => exact absurd rfl (h [] count child)
      | leaf role bound => exact List.Sublist.refl _
      | composite policy children =>
          rw [Node.leavesAt_eq_flatMap _ fun _ _ heq => by cases heq]
          have hitems : ∀ call ∈ (Activation.mk position (.composite policy children) world).calls
              run, call.item.HasNoLoop := by
            intro call hmem
            have hitem := List.mem_of_getElem? (Step.getElem?_of_mem_callsBy hmem)
            exact h.child hitem
          have hsublist :=
            (Step.sublist_callsBy (Node.activate run) policy children world).flatMap
              fun entry => entry.1.leavesAt (position ++ [entry.2])
          rw [List.flatMap_map] at hsublist
          exact (List.Sublist.flatMap_right _ fun call hmem =>
            hcall call hmem (hitems call hmem)).trans hsublist

end Activation

namespace Tree

variable {σ : Type} (agent : Agent σ) (tree : Tree) (state : σ)

/-- The leaves that a tick evaluates, in order, with their positions. -/
def evaluated : List (Position × Role × Leaf) :=
  (tree.activations agent state).filterMap Activation.leafAt?

theorem map_snd_evaluated :
    (tree.evaluated agent state).map (·.2) =
      (tree.evaluations agent state).map Evaluation.asked := by
  rw [evaluated, evaluations_eq_filterMap, List.map_filterMap, List.map_filterMap]
  congr 1
  funext a
  rw [Activation.leafAt?, Activation.evaluation?]
  cases a.leaf? <;> rfl

theorem length_filter_evaluated_le (position : Position) :
    ((tree.evaluated agent state).filter (·.1 = position)).length ≤
      (tree.root.countsAbove position).prod := by
  have hhere : (tree.evaluated agent state).filter (·.1 = position) =
      ((tree.activation state).allAt (Leaf.run agent tree.ticks) position).filterMap
        Activation.leafAt? := by
    rw [evaluated, List.filter_filterMap, Activation.allAt, List.filterMap_filter]
    congr 1
    funext a
    rw [Activation.leafAt?]
    by_cases h : a.position = position <;> cases a.leaf? <;> simp [activation, h]
  rw [hhere]
  exact (List.length_filterMap_le _ _).trans
    ((tree.activation state).length_allAt_le position)

/-- Whatever the agent does, a tick evaluates a leaf at most as often as the product of the counts
of the loops above it says; the activations that it makes are limited by a number that depends on
the tree alone. If there are no loops, the leaves that are evaluated are some of the leaves of the
tree in the order in which they are written, each at a later position than the one before. -/
theorem evaluated_bounded_in_order (agent : Agent σ) (tree : Tree) (state : σ) :
    let evaluated := tree.evaluated agent state
    evaluated.map (·.2) = (tree.evaluations agent state).map Evaluation.asked ∧
      (∀ position, (evaluated.filter (·.1 = position)).length ≤
        (tree.root.countsAbove position).prod) ∧
      (tree.activations agent state).length ≤ tree.root.work ∧
      (tree.root.HasNoLoop → evaluated.Sublist (tree.root.leavesAt []) ∧
        (evaluated.map (·.1)).Pairwise (· < ·)) := by
  refine ⟨map_snd_evaluated agent tree state, length_filter_evaluated_le agent tree state,
    (tree.activation state).length_all_le, fun h => ?_⟩
  have hsublist : (tree.evaluated agent state).Sublist (tree.root.leavesAt []) :=
    (tree.activation state).sublist_leavesAt h
  exact ⟨hsublist, List.pairwise_map.2 ((tree.root.pairwise_leavesAt []).sublist hsublist)⟩

/-- The bound is reached by a leaf below two loops if it always succeeds. -/
theorem evaluated_bounded_in_order_nested_loops :
    ∃ (agent : Agent Nat) (tree : Tree), tree.root.countsAbove [0, 0] = [2, 3] ∧
      (tree.evaluations agent 0).length = 6 ∧
      ((tree.evaluated agent 0).filter (·.1 = [0, 0])).length ≤ [2, 3].prod := by
  let agent : Agent Nat := ⟨fun _ _ => some ⟨fun state _ => (.ok true, state + 1)⟩⟩
  let step : Node := .leaf .action ⟨"step", .empty, "Loop/0:Loop/0:Step"⟩
  let tree : Tree := .ofRoot (.loop 2 (.loop 3 step))
  obtain ⟨-, hcount, -⟩ := evaluated_bounded_in_order agent tree 0
  exact ⟨agent, tree, rfl, rfl, hcount [0, 0]⟩

end Tree

end BehaviorTree
