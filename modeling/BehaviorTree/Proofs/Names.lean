import BehaviorTree.NameMap
import Mathlib.Data.List.Nodup

/-! # Maps by their lookups

A map is known by what its names are bound to: its entries are increasing, so the lookups leave no
choice for them (`ext_get?`). A list of bindings that never contradicts itself gives the map that
binds what the list binds, whatever its order. -/

namespace BehaviorTree.NameMap

variable {α : Type}

theorem nodup_names (map : NameMap α) : map.names.Nodup := by
  apply map.increasing_names.imp
  intro first second hlt heq
  exact String.lt_irrefl first (heq ▸ hlt)

theorem nodup_entries (map : NameMap α) : map.entries.Nodup :=
  .of_map _ map.nodup_names

/-- Entries in increasing order are determined by what occurs among them. -/
theorem ext_of_perm {a b : NameMap α} (h : a.entries.Perm b.entries) : a = b := by
  ext1
  apply h.eq_of_pairwise _ a.increasing b.increasing
  intro x y _ _ hlt hgt
  exact absurd (String.lt_trans hlt hgt) (String.lt_irrefl x.1)

/-- Maps with the same lookups are equal. -/
theorem ext_get? {a b : NameMap α} (h : ∀ name, a.get? name = b.get? name) : a = b := by
  apply ext_of_perm
  apply (List.perm_ext_iff_of_nodup a.nodup_entries b.nodup_entries).2
  rintro ⟨name, value⟩
  rw [mem_entries_iff, mem_entries_iff, h]

theorem contains_insert (map : NameMap α) (name other : String) (value : α) :
    (map.insert name value).contains other = (other == name || map.contains other) := by
  rw [contains, get?_insert]
  by_cases h : other = name
  · simp [h]
  · have hne : (other == name) = false := by simpa using h
    rw [if_neg h, hne, Bool.false_or, contains]

/-! ## Maps of lists -/

/-- No name is bound to two values. -/
def Consistent (bindings : List (String × α)) : Prop :=
  ∀ name a b, (name, a) ∈ bindings → (name, b) ∈ bindings → a = b

theorem consistent_entries (map : NameMap α) : Consistent map.entries := by
  intro name a b ha hb
  rw [mem_entries_iff] at ha hb
  exact Option.some.inj (ha.symm.trans hb)

theorem consistent_of_nodup {bindings : List (String × α)} (h : (bindings.map (·.1)).Nodup) :
    Consistent bindings := by
  intro name a b ha hb
  exact (Prod.mk.inj (List.inj_on_of_nodup_map h ha hb rfl)).2

theorem get?_insertMany (map : NameMap α) (bindings : List (String × α)) (name : String) :
    (map.insertMany bindings).get? name =
      (bindings.reverse.lookup name).or (map.get? name) := by
  induction bindings generalizing map with
  | nil => rfl
  | cons first rest ih =>
      obtain ⟨key, value⟩ := first
      rw [insertMany, List.foldl_cons, ← insertMany, ih, List.reverse_cons, List.lookup_append,
        Option.or_assoc, get?_insert]
      by_cases h : name = key
      · simp [h]
      · have hne : (name == key) = false := by simpa using h
        simp [List.lookup_cons, h, hne]

/-- Of several values for one name the last one stays. -/
theorem get?_ofList (bindings : List (String × α)) (name : String) :
    (ofList bindings).get? name = bindings.reverse.lookup name := by
  rw [ofList, get?_insertMany, get?_empty, Option.or_none]

/-- The map of a consistent list binds what the list binds. -/
theorem get?_ofList_eq_some_iff {bindings : List (String × α)} (h : Consistent bindings)
    {name : String} {value : α} :
    (ofList bindings).get? name = some value ↔ (name, value) ∈ bindings := by
  have hmem : ∀ found, bindings.reverse.lookup name = some found → (name, found) ∈ bindings := by
    intro found hfound
    obtain ⟨before, after, hsplit, -⟩ := List.lookup_eq_some_iff.1 hfound
    apply List.mem_reverse.1
    simp [hsplit]
  rw [get?_ofList]
  constructor
  · exact hmem value
  · intro hvalue
    cases hfound : bindings.reverse.lookup name with
    | none =>
        have hnone := List.lookup_eq_none_iff.1 hfound (name, value) (List.mem_reverse.2 hvalue)
        simp at hnone
    | some found => rw [h name found value (hmem found hfound) hvalue]

/-- The map of a list binds the names that the list binds. -/
theorem contains_ofList_iff {bindings : List (String × α)} {name : String} :
    (ofList bindings).contains name = true ↔ name ∈ bindings.map (·.1) := by
  rw [contains, get?_ofList, Option.isSome_iff_ne_none, ne_eq, List.lookup_eq_none_iff]
  simp only [List.mem_reverse, bne_iff_ne, List.mem_map, not_forall, not_not, exists_prop]
  exact exists_congr fun binding => and_congr_right fun _ => eq_comm

/-- The entries of the map of a list without repeated names are those of the list. -/
theorem perm_entries_ofList {bindings : List (String × α)} (h : (bindings.map (·.1)).Nodup) :
    (ofList bindings).entries.Perm bindings := by
  apply (List.perm_ext_iff_of_nodup (nodup_entries _) (List.Nodup.of_map _ h)).2
  rintro ⟨name, value⟩
  rw [mem_entries_iff, get?_ofList_eq_some_iff (consistent_of_nodup h)]

/-- A list that binds each of its names to the value of a function gives a map that does so. -/
theorem get?_ofList_map (f : String → α) {names : List String} {name : String} (h : name ∈ names) :
    (ofList (names.map fun name => (name, f name))).get? name = some (f name) := by
  have hconsistent : Consistent (names.map fun name => (name, f name)) := by
    intro key a b ha hb
    obtain ⟨_, -, heq⟩ := List.mem_map.1 ha
    obtain ⟨rfl, rfl⟩ := Prod.mk.inj heq
    obtain ⟨_, -, heq⟩ := List.mem_map.1 hb
    obtain ⟨rfl, rfl⟩ := Prod.mk.inj heq
    rfl
  exact (get?_ofList_eq_some_iff hconsistent).2 (List.mem_map.2 ⟨name, h, rfl⟩)

/-- The entries of a map in any order give the map. -/
theorem ofList_of_perm {map : NameMap α} {bindings : List (String × α)}
    (h : bindings.Perm map.entries) : ofList bindings = map := by
  have hconsistent : Consistent bindings := by
    intro name a b ha hb
    exact map.consistent_entries name a b (h.mem_iff.1 ha) (h.mem_iff.1 hb)
  apply ext_get?
  intro name
  apply Option.ext
  intro value
  rw [get?_ofList_eq_some_iff hconsistent, h.mem_iff, mem_entries_iff]

end BehaviorTree.NameMap
