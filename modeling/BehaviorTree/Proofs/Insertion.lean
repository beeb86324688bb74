import BehaviorTree.Json.Forms
import BehaviorTree.Outline
import BehaviorTree.Proofs.Names
import Mathlib.Data.List.Dedup

/-! # The last value of each name

A map is told by the history of its insertions: a name is bound to the value that was last inserted
under it (`NameMap.LastBound`), and each insertion gives back what the name was bound to by the
insertions before it. The order of the history leaves no other trace, so histories with the same
last values give the same entries, and arguments can be compared name by name. -/

namespace BehaviorTree

namespace NameMap

variable {α : Type}

/-! ## Histories of insertions -/

/-- A list of bindings binds the name to this value in the end: no later binding is for the name. -/
def LastBound (bindings : List (String × α)) (name : String) (value : α) : Prop :=
  ∃ before after, bindings = before ++ (name, value) :: after ∧ name ∉ after.map (·.1)

/-- Inserts bindings in order; what each of them displaces, and the map in the end. -/
def exchangeMany (map : NameMap α) : List (String × α) → List (Option α) × NameMap α
  | [] => ([], map)
  | (name, value) :: rest =>
      let (previous, next) := map.exchange name value
      let (others, last) := next.exchangeMany rest
      (previous :: others, last)

section History

variable {bindings : List (String × α)} {name : String} {value : α}

theorem lastBound_iff_lookup :
    LastBound bindings name value ↔ bindings.reverse.lookup name = some value := by
  rw [List.lookup_eq_some_iff]
  constructor
  · rintro ⟨before, after, rfl, hafter⟩
    refine ⟨after.reverse, before.reverse, by simp, ?_⟩
    intro entry hentry
    rw [bne_iff_ne]
    rintro rfl
    exact hafter (List.mem_map_of_mem (List.mem_reverse.1 hentry))
  · rintro ⟨after, before, hsplit, hafter⟩
    refine ⟨before.reverse, after.reverse, ?_, ?_⟩
    · rw [← List.reverse_reverse bindings, hsplit]
      simp
    · rw [List.map_reverse, List.mem_reverse, List.mem_map]
      rintro ⟨entry, hentry, rfl⟩
      simpa using hafter entry hentry

/-- A name is bound to the last value that was inserted under it. -/
theorem get?_ofList_eq_some_iff_lastBound :
    (ofList bindings).get? name = some value ↔ LastBound bindings name value := by
  rw [get?_ofList, lastBound_iff_lookup]

theorem exchangeMany_cons (map : NameMap α) (rest : List (String × α)) :
    map.exchangeMany ((name, value) :: rest) =
      (map.get? name :: ((map.insert name value).exchangeMany rest).1,
        ((map.insert name value).exchangeMany rest).2) := by
  rw [exchangeMany, exchange_eq]

theorem exchangeMany_snd (map : NameMap α) (bindings : List (String × α)) :
    (map.exchangeMany bindings).2 = map.insertMany bindings := by
  induction bindings generalizing map with
  | nil => rfl
  | cons first rest ih =>
      obtain ⟨name, value⟩ := first
      rw [exchangeMany_cons, ih, insertMany, insertMany, List.foldl_cons]

/-- An insertion displaces what its name is bound to after the insertions before it. -/
theorem exchangeMany_fst_append (map : NameMap α) (before after : List (String × α)) :
    (map.exchangeMany (before ++ (name, value) :: after)).1[before.length]? =
      some ((map.insertMany before).get? name) := by
  induction before generalizing map with
  | nil =>
      rw [List.nil_append, exchangeMany_cons]
      rfl
  | cons first rest ih =>
      obtain ⟨key, stored⟩ := first
      rw [List.cons_append, exchangeMany_cons, List.length_cons, List.getElem?_cons_succ, ih,
        insertMany, insertMany, List.foldl_cons]

theorem length_exchangeMany (map : NameMap α) (bindings : List (String × α)) :
    (map.exchangeMany bindings).1.length = bindings.length := by
  induction bindings generalizing map with
  | nil => rfl
  | cons first rest ih =>
      obtain ⟨name, value⟩ := first
      rw [exchangeMany_cons, List.length_cons, List.length_cons, ih]

/-- Each name is counted once, however often it was inserted. -/
theorem size_ofList (bindings : List (String × α)) :
    (ofList bindings).size = (bindings.map (·.1)).dedup.length := by
  have hperm : (ofList bindings).names.Perm (bindings.map (·.1)).dedup := by
    apply (List.perm_ext_iff_of_nodup (nodup_names _) (List.nodup_dedup _)).2
    intro name
    rw [mem_names_iff, contains_ofList_iff, List.mem_dedup]
  rw [← hperm.length_eq, names, List.length_map, size]

/-- The order of names is that of their code points. -/
theorem increasing_codePoints (map : NameMap α) :
    map.names.Pairwise fun a b => a.toList.map Char.toNat < b.toList.map Char.toNat := by
  apply map.increasing_names.imp
  intro a b hlt
  exact List.map_lt (fun _ _ h => h) (String.lt_iff.1 hlt)

/-- Entries are determined by the last values of names. -/
theorem ofList_eq_iff {first second : List (String × α)} : ofList first = ofList second ↔
    ∀ name value, LastBound first name value ↔ LastBound second name value := by
  simp only [← get?_ofList_eq_some_iff_lastBound]
  constructor
  · intro h name value
    rw [h]
  · intro h
    apply ext_get?
    intro name
    exact Option.ext (h name)

end History

end NameMap

/-! ## Equal arguments -/

/-- A floating-point number that is none. -/
def Value.IsNaN (v : Value) : Prop := ∃ x, v = .float x ∧ x.isNaN = true

/-- Only what is not a number differs from itself. -/
theorem Value.agrees_self_iff {v : Value} : v.agrees v = true ↔ ¬ v.IsNaN := by
  cases v with
  | int n => simp [agrees, IsNaN]
  | str s => simp [agrees, IsNaN]
  | float x =>
      rw [agrees, Binary64.agrees, Binary64.place?]
      cases hnan : x.isNaN <;> simp [IsNaN, hnan]

namespace Kwargs

/-- Two lookups find equal values, or nothing both times. -/
abbrev SameValue : Option Value → Option Value → Prop := Option.Rel (·.agrees · = true)

theorem sameValue_some_iff {v w : Value} :
    SameValue (some v) (some w) ↔ v.agrees w = true := by
  constructor
  · rintro ⟨h⟩
    exact h
  · intro h
    exact .some h

section Agreeing

variable {as bs : List (String × Value)}

theorem sameValue_of_agreeing (h : agreeing as bs = true) (name : String) :
    SameValue (as.lookup name) (bs.lookup name) := by
  fun_induction agreeing as bs with
  | case1 => exact .none
  | case2 a as b bs ih =>
      obtain ⟨key, v⟩ := a
      obtain ⟨key', w⟩ := b
      simp only [Bool.and_eq_true, beq_iff_eq] at h
      obtain ⟨⟨rfl, hvalue⟩, hrest⟩ := h
      rw [List.lookup_cons, List.lookup_cons]
      split
      · exact .some hvalue
      · exact ih hrest
  | case3 => cases h

/-- Increasing entries agree when all lookups do. Their first names are the same: the smaller of two
would be found on one side only. -/
theorem agreeing_of_sameValue (has : as.Pairwise (fun a b => a.1 < b.1))
    (hbs : bs.Pairwise (fun a b => a.1 < b.1))
    (h : ∀ name, SameValue (as.lookup name) (bs.lookup name)) : agreeing as bs = true := by
  induction as generalizing bs with
  | nil =>
      cases bs with
      | nil => rfl
      | cons b bs =>
          have hfirst := h b.1
          rw [List.lookup_cons_self] at hfirst
          cases hfirst
  | cons a as ih =>
      obtain ⟨key, v⟩ := a
      cases bs with
      | nil =>
          have hfirst := h key
          rw [List.lookup_cons_self] at hfirst
          cases hfirst
      | cons b bs =>
          obtain ⟨key', w⟩ := b
          have hge : ¬ key < key' := by
            intro hlt
            have hfirst := h key
            rw [List.lookup_cons_self, NameMap.lookup_cons_of_lt hlt hbs] at hfirst
            cases hfirst
          have hle : ¬ key' < key := by
            intro hlt
            have hfirst := h key'
            rw [List.lookup_cons_self, NameMap.lookup_cons_of_lt hlt has] at hfirst
            cases hfirst
          obtain rfl : key = key' :=
            String.le_antisymm (String.not_lt.1 hle) (String.not_lt.1 hge)
          have hvalue := h key
          rw [List.lookup_cons_self, List.lookup_cons_self, sameValue_some_iff] at hvalue
          rw [List.pairwise_cons] at has hbs
          have hrest : ∀ name, SameValue (as.lookup name) (bs.lookup name) := by
            intro name
            by_cases hname : name = key
            · -- The name is used up on both sides.
              rw [hname, NameMap.lookup_eq_none_of_lt has.1, NameMap.lookup_eq_none_of_lt hbs.1]
              exact .none
            · have hne : (name == key) = false := by simpa using hname
              have hboth := h name
              rwa [List.lookup_cons, List.lookup_cons, hne] at hboth
          rw [agreeing, ih has.2 hbs.2 hrest]
          simp [hvalue]

end Agreeing

theorem agrees_iff {a b : Kwargs} :
    a.agrees b = true ↔ ∀ name, SameValue (a.get? name) (b.get? name) :=
  ⟨sameValue_of_agreeing, agreeing_of_sameValue a.increasing b.increasing⟩

/-- Arguments are equal to themselves unless some value in them is not a number. -/
theorem agrees_self_iff {kwargs : Kwargs} :
    kwargs.agrees kwargs = true ↔ ∀ name v, kwargs.get? name = some v → ¬ v.IsNaN := by
  rw [agrees_iff]
  apply forall_congr'
  intro name
  cases kwargs.get? name with
  | none =>
      constructor
      · rintro - v ⟨⟩
      · intro _
        exact .none
  | some found =>
      rw [sameValue_some_iff, Value.agrees_self_iff]
      simp

/-- What comes of inserting bindings one after the other: what each insertion gave back, and the
arguments in the end. -/
structure Recalls (bindings : List (String × Value)) (replies : List (Option Value))
    (kwargs : Kwargs) : Prop where
  length : replies.length = bindings.length
  previous : ∀ before name value after, bindings = before ++ (name, value) :: after →
    ∃ reply, replies[before.length]? = some reply ∧
      ∀ v, reply = some v ↔ NameMap.LastBound before name v
  found : ∀ name v, kwargs.get? name = some v ↔ NameMap.LastBound bindings name v
  entries : ∀ name v, (name, v) ∈ kwargs.entries ↔ NameMap.LastBound bindings name v
  increasing : kwargs.names.Pairwise fun a b => a.toList.map Char.toNat < b.toList.map Char.toNat
  nodup : kwargs.names.Nodup
  size : kwargs.size = (bindings.map (·.1)).dedup.length

theorem recalls_exchangeMany (bindings : List (String × Value)) :
    Recalls bindings (NameMap.empty.exchangeMany bindings).1 (.ofList bindings) where
  length := NameMap.length_exchangeMany _ bindings
  previous := by
    rintro before name value after rfl
    exact ⟨_, NameMap.exchangeMany_fst_append _ before after,
      fun v => NameMap.get?_ofList_eq_some_iff_lastBound⟩
  found _ _ := NameMap.get?_ofList_eq_some_iff_lastBound
  entries name v := by
    rw [NameMap.mem_entries_iff, NameMap.get?_ofList_eq_some_iff_lastBound]
  increasing := NameMap.increasing_codePoints _
  nodup := NameMap.nodup_names _
  size := NameMap.size_ofList bindings

end Kwargs

/-- Arguments are a map. Whatever is inserted in whatever order, all at once or one by one, each
insertion gives back the last value inserted under its name before, if there is one. In the end each
name is found with the last value inserted under it, the names are listed in the order of their code
points, each of them once, and the size is the number of different names. Two such maps are equal if
and only if all names are found with equal values, and a map differs from itself only if it has a
value that is not a number. Histories with the same last values are not told apart: by their
entries, and so neither by their outlines nor in JSON. -/
theorem arguments_recall_last_values :
    (∀ bindings : List (String × Value),
      Kwargs.Recalls bindings (NameMap.empty.exchangeMany bindings).1
        (NameMap.empty.exchangeMany bindings).2 ∧
      (NameMap.empty.exchangeMany bindings).2 = .ofList bindings) ∧
    ∀ first second : List (String × Value),
      (Kwargs.agrees (.ofList first) (.ofList second) = true ↔ ∀ name,
        Kwargs.SameValue ((NameMap.ofList first).get? name) ((NameMap.ofList second).get? name)) ∧
      (Kwargs.agrees (.ofList first) (.ofList first) = true ↔
        ∀ name v, NameMap.LastBound first name v → ¬ v.IsNaN) ∧
      ((∀ name v, NameMap.LastBound first name v ↔ NameMap.LastBound second name v) →
        (NameMap.ofList first).entries = (NameMap.ofList second).entries ∧
        Kwargs.outline (.ofList first) = Kwargs.outline (.ofList second) ∧
        Kwargs.toJson (.ofList first) = Kwargs.toJson (.ofList second)) := by
  constructor
  · intro bindings
    rw [NameMap.exchangeMany_snd]
    exact ⟨Kwargs.recalls_exchangeMany bindings, rfl⟩
  · intro first second
    refine ⟨Kwargs.agrees_iff, ?_, ?_⟩
    · rw [Kwargs.agrees_self_iff]
      simp only [NameMap.get?_ofList_eq_some_iff_lastBound]
    · intro hsame
      rw [NameMap.ofList_eq_iff.2 hsame]
      exact ⟨rfl, rfl, rfl⟩

/-- Two histories of one map: a value that is overwritten, and names in either order. -/
theorem arguments_recall_last_values_two_orders :
    ∃ first second : List (String × Value),
      first = [("zone", .int 1), ("Ärger", .str "x"), ("zone", .int 2)] ∧
      second = [("Ärger", .str "x"), ("zone", .int 2)] ∧
      (∀ name v, NameMap.LastBound first name v ↔ NameMap.LastBound second name v) ∧
      (NameMap.empty.exchangeMany first).1[2]? = some (some (.int 1)) ∧
      Kwargs.outline (.ofList first) = Kwargs.outline (.ofList second) ∧
      Kwargs.outline (.ofList second) = "(zone=2, Ärger=\"x\")" := by
  let first : List (String × Value) := [("zone", .int 1), ("Ärger", .str "x"), ("zone", .int 2)]
  let second : List (String × Value) := [("Ärger", .str "x"), ("zone", .int 2)]
  have hsame : ∀ name v, NameMap.LastBound first name v ↔ NameMap.LastBound second name v :=
    NameMap.ofList_eq_iff.1 (by decide)
  obtain ⟨hrecalls, hequal⟩ := arguments_recall_last_values
  obtain ⟨-, houtline, -⟩ := (hequal first second).2.2 hsame
  obtain ⟨reply, hreply, hprevious⟩ := (hrecalls first).1.previous
    [("zone", .int 1), ("Ärger", .str "x")] "zone" (.int 2) [] rfl
  have hbefore : reply = some (.int 1) :=
    (hprevious (.int 1)).2 ⟨[], [("Ärger", .str "x")], rfl, by decide⟩
  refine ⟨first, second, rfl, rfl, hsame, ?_, houtline, by decide +kernel⟩
  rw [← hbefore]
  exact hreply

end BehaviorTree
