import Mathlib.Data.Int.CardIntervalMod
import BehaviorTree.Proofs.Session
import BehaviorTree.Proofs.Succession

/-! # Children take turns

An activation of a node whose children take turns calls the child at the cursor and no other, and
passes the turn on. The node is handed on unchanged from one of its activations to the next, so what
counts is how many there have been, not where they were: in one tick or in many, in the rounds of a
loop, in ticks that were aborted. The activation with number `k` calls the child with number `k`
modulo the number of children, and the cursor is the number of activations modulo it. -/

namespace BehaviorTree

/-! ## Turns -/

/-- The children that an activation calls, by their indices. -/
def Activation.called {ω : Type} (run : LeafRun ω) (a : Activation ω) : List Nat :=
  (a.calls run).map (·.index)

/-- What the activations of the node at a position call in a tick, activation by activation. -/
def Tree.turns {σ : Type} (agent : Agent σ) (tree : Tree) (state : σ) (position : Position) :
    List (List Nat) :=
  let here := (tree.activations agent state).filter (·.position = position)
  here.map (Activation.called (Leaf.run agent tree.ticks))

/-- What the activations of the node at a position of one of the trees call in a session. -/
def Session.turns {ι σ : Type} [DecidableEq ι] (agent : Agent σ) (session : Session ι σ) (name : ι)
    (position : Position) (occasions : List (Occasion ι σ)) : List (List Nat) :=
  let ticks := (session.starts agent occasions).filter (·.name = name)
  ticks.flatMap fun start => start.tree.turns agent start.agent position

/-- The children of a node take turns, there are `number` of them, and `taken` turns are over. -/
def Node.AtTurn (node : Node) (number taken : Nat) : Prop :=
  ∃ children : List Node, node = .composite (.alternate (taken % number)) children ∧
    children.length = number

/-! ## The turns of a tick -/

section Turns

variable {ω : Type} {run : LeafRun ω} {number taken : Nat}

/-- One activation is one turn. -/
theorem Node.AtTurn.step (run : LeafRun ω) {a : Activation ω} (h : a.node.AtTurn number taken)
    (hpos : 0 < number) :
    a.called run = [taken % number] ∧ (a.step run).state.AtTurn number (taken + 1) := by
  obtain ⟨position, node, world⟩ := a
  obtain ⟨children, rfl, hnumber⟩ := h
  have hcursor : taken % number < children.length := by
    rw [hnumber]
    exact Nat.mod_lt taken hpos
  constructor
  · have hchild : children[taken % number]? = some children[taken % number] :=
      List.getElem?_eq_getElem hcursor
    rw [Activation.called, Activation.calls_composite, Step.callsBy_alternate _ hchild]
    rfl
  · have hlength : (Step.visitBy (Node.activate run) (.alternate (taken % number)) children
        world).state.2.length = number :=
      (Step.length_visitBy _ children world).trans hnumber
    refine ⟨_, ?_, hlength⟩
    have hnext : (taken % number + 1) % children.length = (taken + 1) % number := by
      rw [hnumber, Nat.mod_add_mod]
    rw [Activation.step, Node.activate_composite, ← hnext]
    rfl

/-- Activations of one node are as many turns. -/
theorem Node.AtTurn.steps {activations : List (Activation ω)} {node node' : Node}
    (h : node.AtTurn number taken) (hpos : 0 < number)
    (hsteps : HandedOn Activation.node (fun a => (a.step run).state) node activations node') :
    activations.map (Activation.called run) =
        (List.range' taken activations.length).map (fun k => [k % number]) ∧
      node'.AtTurn number (taken + activations.length) := by
  induction activations generalizing node taken with
  | nil =>
      obtain rfl : node' = node := hsteps
      exact ⟨rfl, h⟩
  | cons a rest ih =>
      obtain ⟨rfl, hrest⟩ := hsteps
      obtain ⟨hcalled, hnext⟩ := h.step run hpos
      obtain ⟨hcalledRest, hlast⟩ := ih hnext hrest
      constructor
      · rw [List.map_cons, hcalled, hcalledRest, List.length_cons, List.range'_succ, List.map_cons]
      · rwa [List.length_cons, Nat.add_comm rest.length, ← Nat.add_assoc]

/-- The activations of a child are the turns that it is given. -/
theorem Activation.length_allAt_concat (a : Activation ω) (below : Position) (i : Nat) :
    (a.allAt run (below ++ [i])).length =
      ((a.allAt run below).map (Activation.called run)).flatten.count i := by
  rw [allAt_concat]
  induction a.allAt run below with
  | nil => rfl
  | cons parent rest ih =>
      rw [List.flatMap_cons, List.length_append, ih, List.map_cons, List.flatten_cons,
        List.count_append, called, List.length_map, ← List.countP_eq_length_filter, List.count,
        List.countP_map]
      rfl

end Turns

namespace Tree

variable {σ : Type}

/-- A tick gives the turn to one child after the other and leaves it to the next. -/
theorem turns_tick (agent : Agent σ) {tree : Tree} (state : σ) {position : Position} {node : Node}
    {number taken : Nat} (hnode : tree.root.at? position = some node)
    (hturn : node.AtTurn number taken) (hpos : 0 < number) :
    let turns := tree.turns agent state position
    turns = (List.range' taken turns.length).map (fun k => [k % number]) ∧
      ∃ node', (tree.tick agent state).tree.root.at? position = some node' ∧
        node'.AtTurn number (taken + turns.length) := by
  obtain ⟨node', hnode', hsteps⟩ :=
    (tree.activation state).handedOn_allAt (Leaf.run agent tree.ticks) hnode
  obtain ⟨hcalled, hlast⟩ := hturn.steps hpos hsteps
  have hlength : (tree.turns agent state position).length =
      ((tree.activation state).allAt (Leaf.run agent tree.ticks) position).length :=
    List.length_map _
  rw [← hlength] at hcalled hlast
  exact ⟨hcalled, node', hnode', hlast⟩

/-- What is not activated in a tick is not changed by it. -/
theorem at?_tick_of_turns_eq_nil (agent : Agent σ) {tree : Tree} (state : σ) {position : Position}
    {node : Node} (hnode : tree.root.at? position = some node)
    (hnone : tree.turns agent state position = []) :
    (tree.tick agent state).tree.root.at? position = some node := by
  obtain ⟨node', hnode', hsteps⟩ :=
    (tree.activation state).handedOn_allAt (Leaf.run agent tree.ticks) hnode
  have hempty : (tree.activation state).allAt (Leaf.run agent tree.ticks) position = [] :=
    List.map_eq_nil_iff.1 hnone
  rw [hempty] at hsteps
  obtain rfl : node' = node := hsteps
  exact hnode'

end Tree

/-! ## The turns of a session -/

namespace Session

variable {ι σ : Type} [DecidableEq ι] {agent : Agent σ} {session : Session ι σ} {name : ι}
  {position : Position}

theorem turns_cons_self (occasion : Occasion ι σ) (rest : List (Occasion ι σ)) :
    session.turns agent occasion.name position (occasion :: rest) =
      (session.trees occasion.name).turns agent (occasion.meanwhile session.agent) position ++
        (session.tick agent occasion).turns agent occasion.name position rest := by
  rw [turns, starts, List.filter_cons_of_pos (by simp [start]), List.flatMap_cons]
  rfl

theorem turns_cons_of_ne {occasion : Occasion ι σ} (h : name ≠ occasion.name)
    (rest : List (Occasion ι σ)) :
    session.turns agent name position (occasion :: rest) =
      (session.tick agent occasion).turns agent name position rest := by
  have hstart : ¬ (session.start occasion).name = name := h.symm
  rw [turns, starts, List.filter_cons_of_neg (by simpa using hstart)]
  rfl

/-- A session gives the turn to one child after the other and leaves it to the next. -/
theorem turns_run (agent : Agent σ) {node : Node} {number taken : Nat} (hpos : 0 < number)
    (hnode : (session.trees name).root.at? position = some node)
    (hturn : node.AtTurn number taken) (occasions : List (Occasion ι σ)) :
    let turns := session.turns agent name position occasions
    turns = (List.range' taken turns.length).map (fun k => [k % number]) ∧
      ∃ node', ((session.run agent occasions).trees name).root.at? position = some node' ∧
        node'.AtTurn number (taken + turns.length) := by
  induction occasions generalizing session node taken with
  | nil => exact ⟨rfl, node, hnode, hturn⟩
  | cons occasion rest ih =>
      -- A tick of another tree leaves this one at the turn at which it is.
      by_cases hname : name = occasion.name
      · subst hname
        obtain ⟨hfirst, between, hbetween, hturn⟩ :=
          Tree.turns_tick agent (occasion.meanwhile session.agent) hnode hturn hpos
        rw [← trees_tick_self] at hbetween
        obtain ⟨hlater, node', hnode', hlast⟩ := ih hbetween hturn
        rw [turns_cons_self]
        constructor
        · rw [List.length_append, ← List.range'_append_1, List.map_append, ← hfirst, ← hlater]
        · rw [List.length_append, ← Nat.add_assoc]
          exact ⟨node', hnode', hlast⟩
      · have hsame : ((session.tick agent occasion).trees name).root.at? position = some node := by
          rwa [trees_tick_of_ne hname]
        rw [turns_cons_of_ne hname]
        exact ih hsame hturn

theorem length_turns_concat (occasions : List (Occasion ι σ)) (i : Nat) :
    (session.turns agent name (position ++ [i]) occasions).length =
      (session.turns agent name position occasions).flatten.count i := by
  rw [turns, turns]
  induction (session.starts agent occasions).filter (·.name = name) with
  | nil => rfl
  | cons start rest ih =>
      have hstart : (start.tree.turns agent start.agent (position ++ [i])).length =
          (start.tree.turns agent start.agent position).flatten.count i :=
        (List.length_map _).trans
          ((start.tree.activation start.agent).length_allAt_concat position i)
      rw [List.flatMap_cons, List.flatMap_cons, List.length_append, List.flatten_append,
        List.count_append, hstart]
      exact congrArg _ ih

/-- Among the first numbers, a remainder comes once for every time that it is complete, and once
more if its last round is begun. -/
theorem count_map_mod_range {number : Nat} {i : Nat} (hi : i < number) (n : Nat) :
    ((List.range n).map (· % number)).count i =
      n / number + if i < n % number then 1 else 0 := by
  have hcount := Nat.count_modEq_card n (Nat.zero_lt_of_lt hi) i
  rw [Nat.mod_eq_of_lt hi] at hcount
  rw [← hcount, Nat.count, List.count, List.countP_map]
  congr 1
  funext k
  simp [Nat.ModEq, Nat.mod_eq_of_lt hi, beq_eq_decide]

theorem count_map_mod_range_le {number : Nat} {i j : Nat} (hi : i < number) (hj : j < number)
    (n : Nat) : ((List.range n).map (· % number)).count i ≤
      ((List.range n).map (· % number)).count j + 1 := by
  rw [count_map_mod_range hi, count_map_mod_range hj]
  split <;> split <;> omega

/-- A node of a compiled tree whose children take turns. Whatever becomes of the tree in a session,
and of others that share the agent, activation `k` of the node calls the child with index `k` modulo
their number and no other, in whichever tick it is and whether or not that tick is aborted. The
cursor is the number of activations modulo that of the children. So no child is activated more than
once more often than another, and a tick that does not activate the node leaves it as it is. -/
theorem round_robin {config : Config} {spec : Spec} {root : Node}
    (hcompile : spec.compile config = .ok root) {cursor : Nat} {children : List Node}
    (hnode : root.at? position = some (.composite (.alternate cursor) children))
    (agent : Agent σ) (session : Session ι σ) (hnew : session.trees name = .ofRoot root)
    (occasions : List (Occasion ι σ)) :
    let turns := session.turns agent name position occasions
    let after := session.run agent occasions
    turns = (List.range turns.length).map (fun k => [k % children.length]) ∧
      (∃ left : List Node, left.length = children.length ∧
        (after.trees name).root.at? position =
          some (.composite (.alternate (turns.length % children.length)) left)) ∧
      (∀ i j, i < children.length → j < children.length →
        (session.turns agent name (position ++ [i]) occasions).length ≤
          (session.turns agent name (position ++ [j]) occasions).length + 1) ∧
      ∀ occasion, after.turns agent name position [occasion] = [] →
        ((after.tick agent occasion).trees name).root.at? position =
          (after.trees name).root.at? position := by
  obtain ⟨rfl, hpos⟩ := Spec.alternate_of_compile hcompile hnode
  -- A compiled tree begins with the first child, and there is one.
  have hturn : (Node.composite (.alternate 0) children).AtTurn children.length 0 :=
    ⟨children, by rw [Nat.zero_mod], rfl⟩
  have hroot : (session.trees name).root.at? position =
      some (.composite (.alternate 0) children) := by rw [hnew]; exact hnode
  obtain ⟨hturns, node', hnode', hlast⟩ := turns_run agent hpos hroot hturn occasions
  rw [← List.range_eq_range'] at hturns
  rw [Nat.zero_add] at hlast
  refine ⟨hturns, ?_, ?_, ?_⟩
  · obtain ⟨left, rfl, hlength⟩ := hlast
    exact ⟨left, hlength, hnode'⟩
  · intro i j hi hj
    have hflatten : (session.turns agent name position occasions).flatten =
        (List.range (session.turns agent name position occasions).length).map
          (· % children.length) :=
      (congrArg List.flatten hturns).trans (by rw [← List.flatMap_def, List.map_eq_flatMap])
    rw [length_turns_concat, length_turns_concat, hflatten]
    exact count_map_mod_range_le hi hj _
  · intro occasion hnone
    by_cases hname : name = occasion.name
    · subst hname
      rw [turns_cons_self, List.append_eq_nil_iff] at hnone
      rw [trees_tick_self, hnode', Tree.at?_tick_of_turns_eq_nil agent _ hnode' hnone.1]
    · rw [trees_tick_of_ne hname]

/-- Two trees share an agent that has its capabilities in four states only. A loop makes three
activations in the first tick; the tick of the other tree and the one after it are aborted in the
second activation, which still counts as a turn. -/
theorem round_robin_two_trees :
    ∃ (root : Node) (children : List Node) (agent : Agent Nat) (session : Session Bool Nat)
      (occasions : List (Occasion Bool Nat)),
      (Spec.loop 3 ((Spec.composite "Alternate").withChildren
        [.action "Open", .action "Close"])).compile .default = .ok root ∧
      root.at? [0] = some (.composite (.alternate 0) children) ∧
      session.trees true = .ofRoot root ∧
      ((session.run agent occasions).trees true).root.cursors = [1] ∧
      let turns := session.turns agent true [0] occasions
      turns = (List.range turns.length).map (fun k => [k % 2]) := by
  let children : List Node := [.leaf .action ⟨"open", .empty, "Loop/0:Alternate/0:Open"⟩,
    .leaf .action ⟨"close", .empty, "Loop/0:Alternate/1:Close"⟩]
  let root : Node := .loop 3 (.composite (.alternate 0) children)
  let invoked : Capability Nat := ⟨fun state _ => (.ok true, state + 1)⟩
  let agent : Agent Nat := ⟨fun state _ => if state < 4 then some invoked else none⟩
  let session : Session Bool Nat := ⟨fun _ => .ofRoot root, 0, .silent⟩
  let occasions : List (Occasion Bool Nat) := [⟨true, id⟩, ⟨false, id⟩, ⟨true, fun _ => 3⟩]
  have hcompile : (Spec.loop 3 ((Spec.composite "Alternate").withChildren
      [.action "Open", .action "Close"])).compile .default = .ok root := rfl
  have hnode : root.at? [0] = some (.composite (.alternate 0) children) := rfl
  have hnew : session.trees true = .ofRoot root := rfl
  have hturns := (round_robin hcompile hnode agent session hnew occasions).1
  refine ⟨root, children, agent, session, occasions, hcompile, hnode, hnew, ?_, hturns⟩
  decide +kernel

end Session

end BehaviorTree
