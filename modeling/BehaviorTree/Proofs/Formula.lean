import BehaviorTree.Proofs.Abort
import BehaviorTree.Proofs.Cursor

/-! # Trees as formulas

When the capabilities that a tree names always answer the same, a tick computes a formula over these
answers (`Node.value`): a sequence is a conjunction, a selector and a parallel are disjunctions, and
a composite whose children take turns is the child at its cursor. How much of the tree runs, what it
does to the agent and where the cursors go has no part in the value. Each way of visiting computes
its connective by itself (`Step.ComesTo`), and repetition adds nothing, since an activation gives
back a child without cursors as it was. That is why no node that takes turns may stand below a
loop. -/

namespace BehaviorTree

/-! ## The formula -/

/-- What is true of a leaf, given the results that capabilities have: a failure counts as false. -/
def Leaf.holds (results : String → Kwargs → Except Failure Bool) (leaf : Leaf) : Bool :=
  match results leaf.capability leaf.kwargs with
  | .ok result => result
  | .error _ => false

namespace Node

mutual

/-- The value of a tree read as a formula over its leaves. -/
def value (holds : Leaf → Bool) : Node → Bool
  | .composite .sequence children => (values holds children).all id
  | .composite .selector children => (values holds children).any id
  | .composite .parallel children => (values holds children).any id
  | .composite (.alternate cursor) children => (values holds children)[cursor]?.getD false
  | .loop count child => count == 0 || child.value holds
  | .leaf _ bound => holds bound

def values (holds : Leaf → Bool) : List Node → List Bool
  | [] => []
  | node :: rest => node.value holds :: values holds rest

end

theorem values_eq_map (holds : Leaf → Bool) (nodes : List Node) :
    values holds nodes = nodes.map (value holds) := by
  induction nodes with
  | nil => rfl
  | cons node rest ih => rw [values, ih, List.map_cons]

/-! ## Nodes that a tree contains -/

/-- A node stands somewhere in a tree. -/
def Contains (node below : Node) : Prop :=
  ∃ position, node.at? position = some below

theorem contains_iff {node below : Node} :
    node.Contains below ↔ below = node ∨ ∃ child ∈ node.children, child.Contains below := by
  constructor
  · rintro ⟨position, hat⟩
    cases position with
    | nil => exact .inl (Option.some.inj hat).symm
    | cons index rest =>
        rw [at?_cons, Option.bind_eq_some_iff] at hat
        obtain ⟨child, hchild, hat⟩ := hat
        exact .inr ⟨child, List.mem_of_getElem? hchild, rest, hat⟩
  · rintro (rfl | ⟨child, hchild, position, hat⟩)
    · exact ⟨[], rfl⟩
    · obtain ⟨index, hnode⟩ := exists_at?_of_mem_children hchild hat
      exact ⟨index :: position, hnode⟩

@[simp] theorem contains_composite {policy : Policy} {children : List Node} {below : Node} :
    (Node.composite policy children).Contains below ↔
      below = .composite policy children ∨ ∃ child ∈ children, child.Contains below := contains_iff

@[simp] theorem contains_loop {count : UInt32} {child below : Node} :
    (Node.loop count child).Contains below ↔ below = .loop count child ∨ child.Contains below := by
  rw [contains_iff, children]
  simp

@[simp] theorem contains_leaf {role : Role} {bound : Leaf} {below : Node} :
    (Node.leaf role bound).Contains below ↔ below = .leaf role bound := by
  rw [contains_iff, children]
  simp

/-- Trees that differ in their cursors alone contain the same nodes, the cursors apart. -/
theorem Contains.fresh {node below : Node} (h : node.Contains below) :
    node.fresh.Contains below.fresh := by
  obtain ⟨position, hat⟩ := h
  exact ⟨position, by rw [at?_fresh, hat]; rfl⟩

theorem hasNoCursor_iff {node : Node} : node.HasNoCursor ↔
    ∀ cursor children, ¬ node.Contains (.composite (.alternate cursor) children) :=
  ⟨fun h cursor children ⟨position, hat⟩ => h position cursor children hat,
    fun h position cursor children hat => h cursor children ⟨position, hat⟩⟩

/-- No node that takes its children in turns stands below a loop. -/
def NoCursorInLoops (node : Node) : Prop :=
  ∀ count child, node.Contains (.loop count child) → child.HasNoCursor

theorem NoCursorInLoops.child {node child : Node} (h : node.NoCursorInLoops)
    (hchild : child ∈ node.children) : child.NoCursorInLoops :=
  fun count below hloop => h count below (contains_iff.2 (.inr ⟨child, hchild, hloop⟩))

/-- Whether there are cursors below loops is the same wherever the cursors stand. -/
theorem NoCursorInLoops.of_fresh_eq {node compiled : Node} (heq : node.fresh = compiled)
    (h : compiled.NoCursorInLoops) : node.NoCursorInLoops := by
  intro count child hloop
  rw [hasNoCursor_iff]
  intro cursor children hturn
  have hfresh : child.fresh.HasNoCursor := h count child.fresh (heq ▸ hloop.fresh)
  exact hasNoCursor_iff.1 hfresh 0 (freshAll children) hturn.fresh

end Node

/-! ## Every way of visiting computes its connective -/

/-- In worlds where `keeps` holds, an activation comes to this value, and `keeps` holds again of the
world that it leaves. -/
def Step.ComesTo {ω τ : Type} (keeps : ω → Prop) (activation : ω → Step ω τ) (value : Bool) :
    Prop :=
  ∀ world, keeps world →
    (activation world).outcome = .ok (.ofBool value) ∧ keeps (activation world).world

namespace Step

variable {ω τ υ : Type} {keeps : ω → Prop} {activate : τ → ω → Step ω τ} {value : τ → Bool}

theorem ComesTo.map {activation : ω → Step ω τ} {result : Bool}
    (h : ComesTo keeps activation result) (put : τ → υ) :
    ComesTo keeps (fun world => (activation world).map put) result := h

/-- A visit that stops at one value and starts from the other comes to the one it stops at if an
item does, and to the other if none does. -/
theorem comesTo_visit_stop (stop : Bool) {items : List τ}
    (h : ∀ item ∈ items, ComesTo keeps (activate item) (value item)) :
    ComesTo keeps (visit activate (some (.ofBool stop)) (.ofBool !stop) items)
      (if items.any (value · == stop) then stop else !stop) := by
  induction items with
  | nil => exact fun world hworld => ⟨rfl, hworld⟩
  | cons item rest ih =>
      intro world hworld
      obtain ⟨hfirst, hkeeps⟩ := h item List.mem_cons_self world hworld
      by_cases hvalue : value item = stop
      · rw [hvalue] at hfirst
        simpa [visit, hfirst, hvalue] using hkeeps
      · -- The item comes to the other value, from which the visit has started and goes on.
        have hother : value item = !stop := by cases stop <;> simpa using hvalue
        have hrest := ih (fun item hitem => h item (List.mem_cons_of_mem _ hitem)) _ hkeeps
        rw [hother] at hfirst
        cases stop <;> simpa [visit, hfirst, hother, Status.ofBool, Status.or, map] using hrest

theorem comesTo_visit_all {items : List τ}
    (h : ∀ item ∈ items, ComesTo keeps (activate item) (value item)) :
    ComesTo keeps (visit activate (some .failure) .success items) (items.all value) := by
  have hvalue : (if items.any (value · == false) then false else !false) = items.all value := by
    rw [← Bool.not_not (items.all value), List.not_all_eq_any_not]
    cases hany : items.any (!value ·) <;> simp [hany]
  rw [← hvalue]
  exact comesTo_visit_stop false h

theorem comesTo_visit_any {items : List τ}
    (h : ∀ item ∈ items, ComesTo keeps (activate item) (value item)) :
    ComesTo keeps (visit activate (some .success) .failure items) (items.any value) := by
  have hvalue : (if items.any (value · == true) then true else !true) = items.any value := by
    cases hany : items.any value <;> simp [hany]
  rw [← hvalue]
  exact comesTo_visit_stop true h

/-- A visit that never stops comes to true if it starts from it or an item comes to it. -/
theorem comesTo_visit_none (sofar : Bool) {items : List τ}
    (h : ∀ item ∈ items, ComesTo keeps (activate item) (value item)) :
    ComesTo keeps (visit activate none (.ofBool sofar) items) (sofar || items.any value) := by
  induction items generalizing sofar with
  | nil =>
      intro world hworld
      exact ⟨by simp [visit], hworld⟩
  | cons item rest ih =>
      intro world hworld
      obtain ⟨hfirst, hkeeps⟩ := h item List.mem_cons_self world hworld
      have hor : (Status.ofBool sofar).or (.ofBool (value item)) =
          .ofBool (sofar || value item) := by
        cases sofar <;> cases value item <;> rfl
      have hrest := ih (sofar || value item)
        (fun item hitem => h item (List.mem_cons_of_mem _ hitem)) _ hkeeps
      simpa [visit, hfirst, hor, map, Bool.or_assoc] using hrest

theorem comesTo_visitAt (index : Nat) {items : List τ}
    (h : ∀ item ∈ items, ComesTo keeps (activate item) (value item)) :
    ComesTo keeps (visitAt activate index items) ((items.map value)[index]?.getD false) := by
  intro world hworld
  cases hitem : items[index]? with
  | none => simpa [visitAt, hitem] using ⟨rfl, hworld⟩
  | some item =>
      simpa [visitAt, hitem, map] using h item (List.mem_of_getElem? hitem) world hworld

/-- An item that an activation gives back as it was comes to the same value however often it is
activated. -/
theorem comesTo_repeated {item : τ} {result : Bool} (h : ComesTo keeps (activate item) result)
    (hsame : ∀ world, (activate item world).state = item) (count : Nat) :
    ComesTo keeps (repeated activate count item) (count == 0 || result) := by
  induction count with
  | zero => exact fun world hworld => ⟨rfl, hworld⟩
  | succ count ih =>
      intro world hworld
      obtain ⟨hfirst, hkeeps⟩ := h world hworld
      cases result with
      | false =>
          rw [repeated_succ_of_not_success (by rw [hfirst]; exact nofun)]
          exact ⟨hfirst, hkeeps⟩
      | true =>
          rw [repeated_succ_of_success hfirst, hsame]
          simpa using ih _ hkeeps

end Step

/-! ## Activations compute the formula -/

namespace Node

variable {ω : Type} {run : LeafRun ω} {keeps : ω → Prop} {holds : Leaf → Bool}

/-- An activation of a tree comes to the value of the formula if its leaves come to theirs. -/
theorem comesTo_activate {node : Node} (hloops : node.NoCursorInLoops)
    (hleaves : ∀ role leaf, node.Contains (.leaf role leaf) →
      Step.ComesTo keeps ((Node.leaf role leaf).activate run) (holds leaf)) :
    Step.ComesTo keeps (node.activate run) (node.value holds) := by
  induction node using child_induction with
  | step node ih =>
      have hchildren : ∀ child ∈ node.children,
          Step.ComesTo keeps (child.activate run) (child.value holds) :=
        fun child hchild => ih child hchild (hloops.child hchild)
          fun role leaf hleaf => hleaves role leaf (contains_iff.2 (.inr ⟨child, hchild, hleaf⟩))
      cases node with
      | leaf role bound => exact hleaves role bound (contains_iff.2 (.inl rfl))
      | loop count child =>
          -- An activation changes nothing but cursors, and the child has none.
          have hnone : child.HasNoCursor := hloops count child (contains_iff.2 (.inl rfl))
          have hsame : ∀ world, (child.activate run world).state = child := fun world =>
            hnone.eq_of_fresh_eq (fresh_activate run child world)
          have hchild := hchildren child (List.mem_singleton_self child)
          have hrepeated := (Step.comesTo_repeated hchild hsame count.toNat).map (Node.loop count)
          have hzero : (count.toNat == 0) = (count == 0) := by
            rw [Bool.eq_iff_iff, beq_iff_eq, beq_iff_eq, ← UInt32.toNat_inj]
            rfl
          intro world hworld
          rw [activate_loop, value, ← hzero]
          exact hrepeated world hworld
      | composite policy children =>
          rw [funext (activate_composite run policy children)]
          refine Step.ComesTo.map ?_ _
          cases policy with
          | sequence =>
              rw [value, values_eq_map, List.all_map]
              exact (Step.comesTo_visit_all hchildren).map _
          | selector =>
              rw [value, values_eq_map, List.any_map]
              exact (Step.comesTo_visit_any hchildren).map _
          | parallel =>
              rw [value, values_eq_map, List.any_map]
              exact (Step.comesTo_visit_none false hchildren).map _
          | alternate cursor =>
              rw [value, values_eq_map]
              exact (Step.comesTo_visitAt cursor hchildren).map _

end Node

/-! ## Agents whose capabilities always answer the same -/

/-- As long as it is in one of these states, an agent offers the capabilities that the leaves of a
tree are bound to, and what they give is settled by their names and arguments. It may change within
these states as it likes. Conditions do not fail. -/
structure Agent.Settled {σ : Type} (agent : Agent σ) (states : σ → Prop)
    (results : String → Kwargs → Except Failure Bool) (root : Node) : Prop where
  offers : ∀ role leaf, root.Contains (.leaf role leaf) → ∀ state, states state →
    ∃ capability, agent.capability? state leaf.capability = some capability
  gives : ∀ role leaf, root.Contains (.leaf role leaf) → ∀ state capability, states state →
    agent.capability? state leaf.capability = some capability →
      (capability.invoke state leaf.kwargs).1 = results leaf.capability leaf.kwargs
  stays : ∀ role leaf, root.Contains (.leaf role leaf) → ∀ state capability, states state →
    agent.capability? state leaf.capability = some capability →
      states (capability.invoke state leaf.kwargs).2
  probes : ∀ leaf, root.Contains (.leaf .condition leaf) →
    ∃ result, results leaf.capability leaf.kwargs = .ok result

namespace Agent.Settled

variable {σ : Type} {agent : Agent σ} {states : σ → Prop}
  {results : String → Kwargs → Except Failure Bool} {root : Node}

theorem comesTo_leaf (h : agent.Settled states results root) (tick : UInt64) {role : Role}
    {leaf : Leaf} (hleaf : root.Contains (.leaf role leaf)) :
    Step.ComesTo (fun world : World σ => states world.agent)
      ((Node.leaf role leaf).activate (Leaf.run agent tick)) (leaf.holds results) := by
  intro world hworld
  obtain ⟨capability, hoffers⟩ := h.offers role leaf hleaf world.agent hworld
  have hgives := h.gives role leaf hleaf world.agent capability hworld hoffers
  have hstays := h.stays role leaf hleaf world.agent capability hworld hoffers
  have hverdict : leaf.verdict role (.ofResult (results leaf.capability leaf.kwargs)) =
      .ok (.ofBool (leaf.holds results)) := by
    rw [Leaf.holds]
    cases hresult : results leaf.capability leaf.kwargs with
    | ok result => rfl
    | error failure =>
        cases role with
        | action => rfl
        | condition =>
            obtain ⟨result, hprobe⟩ := h.probes leaf hleaf
            rw [hresult] at hprobe
            cases hprobe
  rw [Node.activate_leaf, Leaf.run, Leaf.ask_of_found hoffers, hgives]
  exact ⟨hverdict, hstays⟩

end Agent.Settled

namespace Tree

variable {σ : Type}

/-- A tick of a compiled tree after any ticks, against an agent that is settled on its leaves, is
not aborted, and its status is the value of the formula that the tree is at that moment, provided
that no node that takes turns stands below a loop. The agent stays settled. -/
theorem tick_computes_formula {config : Config} {spec : Spec} {root : Node} {tree : Tree}
    (hcompile : spec.compile config = .ok root) (hreached : Reaches (.ofRoot root) tree)
    (hloops : root.NoCursorInLoops) {agent : Agent σ} {states : σ → Prop}
    {results : String → Kwargs → Except Failure Bool}
    (hsettled : agent.Settled states results root) {state : σ} (hstate : states state) :
    (tree.tick agent state).outcome = .ok (.ofBool (tree.root.value (Leaf.holds results))) ∧
      states (tree.tick agent state).agent := by
  have hfresh : tree.root.fresh = root := hreached.fresh_eq.trans (Spec.fresh_of_compile hcompile)
  have hroot : Step.ComesTo (fun world : World σ => states world.agent)
      (tree.root.activate (Leaf.run agent tree.ticks)) (tree.root.value (Leaf.holds results)) :=
    Node.comesTo_activate (hloops.of_fresh_eq hfresh) fun role leaf hleaf =>
      hsettled.comesTo_leaf tree.ticks (hfresh ▸ hleaf.fresh)
  exact hroot ⟨state, #[]⟩ hstate

/-- The first tick has moved the turn from an action that fails while it runs to one that succeeds,
which makes the formula true. The agent counts what it does, and is of use only once it has begun to
count. -/
theorem tick_computes_formula_second_turn :
    ∃ (agent : Agent Nat) (tree : Tree), tree.root.cursors = [1] ∧
      (tree.tick agent 1).outcome = .ok .success ∧ 0 < (tree.tick agent 1).agent := by
  let spec := (Spec.composite "Selector").withChildren
    [.loop 2 (.condition "Ready"),
      (Spec.composite "Alternate").withChildren [.action "Open", .action "Close"]]
  let ready : Leaf := ⟨"ready", .empty, "Selector/0:Loop/0:Ready"⟩
  let root : Node := .composite .selector
    [.loop 2 (.leaf .condition ready),
      .composite (.alternate 0)
        [.leaf .action ⟨"open", .empty, "Selector/1:Alternate/0:Open"⟩,
          .leaf .action ⟨"close", .empty, "Selector/1:Alternate/1:Close"⟩]]
  let results : String → Kwargs → Except Failure Bool := fun name _ =>
    if name = "open" then .error ⟨"jammed"⟩ else .ok (name = "close")
  let agent : Agent Nat := ⟨fun state name =>
    if state = 0 then none else some ⟨fun state kwargs => (results name kwargs, state + 1)⟩⟩
  have hcompile : spec.compile .default = .ok root := rfl
  have hreached : Reaches (.ofRoot root) ((ofRoot root).tick agent 1).tree := .tick agent 1 .refl
  have hloops : root.NoCursorInLoops := by
    intro count child hloop
    obtain ⟨-, rfl⟩ : count = 2 ∧ child = .leaf .condition ready := by simpa [root] using hloop
    exact Node.hasNoCursor_iff.2 (by simp)
  have hsettled : agent.Settled (0 < ·) results root := by
    refine ⟨?_, ?_, ?_, ?_⟩
    · intro role leaf _ state hpos
      exact ⟨_, if_neg (Nat.ne_of_gt hpos)⟩
    · intro role leaf _ state capability hpos hoffers
      obtain rfl := Option.some.inj ((if_neg (Nat.ne_of_gt hpos)).symm.trans hoffers)
      rfl
    · intro role leaf _ state capability hpos hoffers
      obtain rfl := Option.some.inj ((if_neg (Nat.ne_of_gt hpos)).symm.trans hoffers)
      exact Nat.succ_pos state
    · intro leaf hleaf
      obtain rfl : leaf = ready := by simpa [root] using hleaf
      exact ⟨false, rfl⟩
  obtain ⟨houtcome, hpos⟩ := tick_computes_formula hcompile hreached hloops hsettled Nat.one_pos
  refine ⟨agent, ((ofRoot root).tick agent 1).tree, rfl, ?_, hpos⟩
  rw [houtcome]
  rfl

-- Below a loop the turns come round while it repeats, so it is not its child that it computes.
example :
    let leaf (name : String) : Node := .leaf .action ⟨name, .empty, name⟩
    let turns : Node := .composite (.alternate 0) [leaf "open", leaf "close"]
    let agent : Agent Unit := ⟨fun _ name => some ⟨fun _ _ => (.ok (name = "open"), ())⟩⟩
    (Node.loop 2 turns).value (fun leaf => leaf.capability = "open") = true ∧
      ((Tree.ofRoot (.loop 2 turns)).tick agent ()).outcome = .ok .failure :=
  ⟨rfl, rfl⟩

end Tree

end BehaviorTree
