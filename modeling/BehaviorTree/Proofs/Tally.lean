import BehaviorTree.Proofs.Abort
import BehaviorTree.Proofs.Names
import BehaviorTree.Script
import Mathlib.Algebra.BigOperators.Group.List.Lemmas
import Mathlib.Algebra.Order.Ring.Nat

/-! # The tally of a scripted agent

A scripted agent counts its invocations by name, and a count is there only for a name that has been
invoked. So the counts are those of the list of all names invoked so far, whatever their order
(`ScriptedAgent.Tallies`): one evaluation adds the name of its leaf to the list if the script has
it, and evaluations that follow each other add their names one after the other. The counts add up to
the length of the list. -/

namespace BehaviorTree

namespace ScriptedAgent

/-- The names that evaluations invoke, in order. -/
def invoked (evaluations : List (Evaluation ScriptedAgent)) : List String :=
  (evaluations.filterMap (·.invocation? agent)).map (·.capability)

/-- The counts of a scripted agent are those of a list of names. -/
def Tallies (names : List String) (state : ScriptedAgent) : Prop :=
  ∀ name, state.invocations.get? name =
    if names.count name = 0 then none else some (names.count name)

theorem tallies_ofScript (script : Script) : (ofScript script).Tallies [] :=
  fun _ => rfl

section Tallies

variable {names : List String} {state : ScriptedAgent} {name : String}

theorem Tallies.count_eq (h : state.Tallies names) : state.count name = names.count name := by
  unfold count
  rw [h name]
  by_cases hzero : names.count name = 0 <;> simp [hzero]

theorem Tallies.counted (h : state.Tallies names) :
    (state.counted name).Tallies (names ++ [name]) := by
  intro other
  show (state.invocations.insert name (state.count name + 1)).get? other = _
  rw [NameMap.get?_insert, h.count_eq, h other, List.count_append]
  by_cases hname : other = name
  · subst hname
    simp
  · simp [hname, Ne.symm hname]

/-! ## Evaluations -/

theorem invoked_append (first second : List (Evaluation ScriptedAgent)) :
    invoked (first ++ second) = invoked first ++ invoked second := by
  simp [invoked]

theorem invoked_of_ne_missing {evaluations : List (Evaluation ScriptedAgent)}
    (h : ∀ evaluation ∈ evaluations, evaluation.answer agent ≠ .missing) :
    invoked evaluations = evaluations.map (·.leaf.capability) := by
  induction evaluations with
  | nil => rfl
  | cons evaluation rest ih =>
      obtain ⟨hfirst, hrest⟩ := List.forall_mem_cons.1 h
      cases hlookup : agent.capability? evaluation.state evaluation.leaf.capability with
      | none =>
          rw [Evaluation.answer, Leaf.ask_of_missing hlookup] at hfirst
          exact absurd rfl hfirst
      | some capability =>
          rw [List.map_cons, ← ih hrest]
          simp [invoked, Evaluation.invocation?, hlookup]

/-- An evaluation adds the name of its leaf, if the script has it. -/
theorem Tallies.left {evaluation : Evaluation ScriptedAgent}
    (h : evaluation.state.Tallies names) :
    (evaluation.left agent).Tallies (names ++ invoked [evaluation]) := by
  obtain ⟨role, leaf, state⟩ := evaluation
  cases hbehavior : state.behaviors.get? leaf.capability with
  | none =>
      have hmissing := capability?_eq_none hbehavior
      have hnone : invoked [⟨role, leaf, state⟩] = [] := by
        simp [invoked, Evaluation.invocation?, hmissing]
      rw [hnone, List.append_nil, Evaluation.left, Leaf.ask_of_missing hmissing]
      exact h
  | some behavior =>
      have hfound := capability?_of_get? hbehavior
      have hname : invoked [⟨role, leaf, state⟩] = [leaf.capability] := by
        simp [invoked, Evaluation.invocation?, hfound]
      rw [hname, Evaluation.left, Leaf.ask_of_found hfound]
      show (state.invoke leaf.capability leaf.kwargs).2.Tallies _
      rw [snd_invoke]
      exact h.counted

/-- Evaluations that follow each other add the names that they invoke. -/
theorem Tallies.handedOn {evaluations : List (Evaluation ScriptedAgent)} {final : ScriptedAgent}
    (h : state.Tallies names)
    (hhanded : HandedOn Evaluation.state (Evaluation.left agent) state evaluations final) :
    final.Tallies (names ++ invoked evaluations) := by
  induction evaluations generalizing names state with
  | nil =>
      obtain rfl : final = state := hhanded
      simpa [invoked] using h
  | cons evaluation rest ih =>
      obtain ⟨hfound, hrest⟩ := hhanded
      subst hfound
      have hlater := ih h.left hrest
      rwa [List.append_assoc, ← invoked_append] at hlater

/-! ## The entries of a tally -/

theorem Tallies.mem_entries_iff (h : state.Tallies names) {times : Nat} :
    (name, times) ∈ state.invocations.entries ↔ 0 < times ∧ times = names.count name := by
  rw [NameMap.mem_entries_iff, h name]
  by_cases hzero : names.count name = 0
  · simp [hzero]
    omega
  · simp only [hzero, if_false, Option.some.injEq]
    omega

/-- The names of a tally are those of the list, each of them once. -/
theorem Tallies.perm_names (h : state.Tallies names) :
    state.invocations.names.Perm names.dedup := by
  apply (List.perm_ext_iff_of_nodup state.invocations.nodup_names names.nodup_dedup).2
  intro name
  rw [NameMap.mem_names_iff, NameMap.contains, h name, List.mem_dedup]
  by_cases hmem : name ∈ names
  · have hpos : names.count name ≠ 0 := Nat.ne_of_gt (List.count_pos_iff.2 hmem)
    simp [hmem, hpos]
  · simp [hmem, List.count_eq_zero.2 hmem]

/-- The counts add up to the number of invocations. -/
theorem Tallies.sum_counts (h : state.Tallies names) :
    (state.invocations.entries.map (·.2)).sum = names.length := by
  have hcounts : state.invocations.entries.map (·.2) =
      state.invocations.names.map fun name => names.count name := by
    rw [NameMap.names, List.map_map]
    apply List.map_congr_left
    rintro ⟨name, times⟩ hentry
    exact (h.mem_entries_iff.1 hentry).2
  calc (state.invocations.entries.map (·.2)).sum
      = (state.invocations.names.map fun name => names.count name).sum := by rw [hcounts]
    _ = (names.dedup.map fun name => names.count name).sum := (h.perm_names.map _).sum_eq
    _ = names.length := List.sum_map_count_dedup_eq_length names

end Tallies

end ScriptedAgent

end BehaviorTree
