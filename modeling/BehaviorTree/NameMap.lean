/-! # Maps from names

A `NameMap` binds names to values and keeps its entries in strictly increasing order of their names,
which are compared by code point. The order does not depend on the history of insertions: two maps
with the same lookups are equal. -/

namespace BehaviorTree

/-- A finite map from names, as the list of its entries in increasing order of names. -/
structure NameMap (α : Type) where
  entries : List (String × α)
  increasing : entries.Pairwise (fun a b => a.1 < b.1)

namespace NameMap

variable {α β : Type}

instance [DecidableEq α] : DecidableEq (NameMap α) := fun a b =>
  decidable_of_iff (a.entries = b.entries) (by cases a; cases b; simp)

@[ext] theorem ext {a b : NameMap α} (h : a.entries = b.entries) : a = b := by
  cases a
  cases b
  simpa using h

def empty : NameMap α := ⟨[], .nil⟩

instance : EmptyCollection (NameMap α) := ⟨empty⟩

instance : Inhabited (NameMap α) := ⟨empty⟩

/-- Puts an entry at its place among increasing entries, in the place of one with the same name. -/
def put (name : String) (value : α) : List (String × α) → List (String × α)
  | [] => [(name, value)]
  | entry :: rest =>
      if name < entry.1 then (name, value) :: entry :: rest
      else if entry.1 < name then entry :: put name value rest
      else (name, value) :: rest

theorem mem_put {name : String} {value : α} {entries : List (String × α)} {entry : String × α}
    (h : entry ∈ put name value entries) : entry = (name, value) ∨ entry ∈ entries := by
  induction entries with
  | nil => simpa [put] using h
  | cons first rest ih =>
      rw [put] at h
      split at h
      · simpa using h
      split at h
      · rcases List.mem_cons.1 h with h | h
        · exact .inr (by simp [h])
        · rcases ih h with h | h
          · exact .inl h
          · exact .inr (by simp [h])
      · rcases List.mem_cons.1 h with h | h
        · exact .inl h
        · exact .inr (by simp [h])

theorem increasing_put (name : String) (value : α) {entries : List (String × α)}
    (h : entries.Pairwise (fun a b => a.1 < b.1)) :
    (put name value entries).Pairwise (fun a b => a.1 < b.1) := by
  induction entries with
  | nil => simp [put]
  | cons first rest ih =>
      rw [List.pairwise_cons] at h
      obtain ⟨hfirst, hrest⟩ := h
      rw [put]
      split
      · rename_i hlt
        rw [List.pairwise_cons, List.pairwise_cons]
        refine ⟨fun entry hentry => ?_, hfirst, hrest⟩
        rcases List.mem_cons.1 hentry with rfl | hentry
        · exact hlt
        · exact String.lt_trans hlt (hfirst entry hentry)
      split
      · rename_i hlt
        rw [List.pairwise_cons]
        refine ⟨fun entry hentry => ?_, ih hrest⟩
        rcases mem_put hentry with rfl | hentry
        · exact hlt
        · exact hfirst entry hentry
      · rename_i hnot hnot'
        have heq : name = first.1 :=
          String.le_antisymm (String.not_lt.1 hnot') (String.not_lt.1 hnot)
        rw [List.pairwise_cons]
        exact ⟨fun entry hentry => heq ▸ hfirst entry hentry, hrest⟩

/-- Binds `name` to `value`, whatever it was bound to before. -/
def insert (map : NameMap α) (name : String) (value : α) : NameMap α :=
  ⟨put name value map.entries, increasing_put name value map.increasing⟩

/-- The value in whose place an entry with this name is put among increasing entries. -/
def displaced? (name : String) : List (String × α) → Option α
  | [] => none
  | entry :: rest =>
      if name < entry.1 then none
      else if entry.1 < name then displaced? name rest
      else some entry.2

/-- Binds `name` to `value`, and gives what it was bound to before. -/
def exchange (map : NameMap α) (name : String) (value : α) : Option α × NameMap α :=
  (displaced? name map.entries, map.insert name value)

def get? (map : NameMap α) (name : String) : Option α :=
  map.entries.lookup name

def contains (map : NameMap α) (name : String) : Bool := (map.get? name).isSome

/-- The bound names, in increasing order. -/
def names (map : NameMap α) : List String := map.entries.map (·.1)

def size (map : NameMap α) : Nat := map.entries.length

def isEmpty (map : NameMap α) : Bool := map.entries.isEmpty

/-- The map with `f` applied to every value. -/
def map (f : α → β) (map : NameMap α) : NameMap β :=
  ⟨map.entries.map fun (name, value) => (name, f value), List.pairwise_map.2 map.increasing⟩

/-- Binds the names of `bindings` in order; of several values for one name the last one stays. -/
def insertMany (map : NameMap α) (bindings : List (String × α)) : NameMap α :=
  bindings.foldl (fun map binding => map.insert binding.1 binding.2) map

/-- The map of a list of bindings; of several values for one name the last one stays. -/
def ofList (bindings : List (String × α)) : NameMap α := insertMany empty bindings

theorem lookup_eq_none_of_lt {name : String} {entries : List (String × α)}
    (h : ∀ entry ∈ entries, name < entry.1) : entries.lookup name = none := by
  apply List.lookup_eq_none_iff.2
  intro entry hentry
  rw [bne_iff_ne]
  rintro rfl
  exact String.lt_irrefl _ (h entry hentry)

/-- What stands before the first of increasing entries is not found. -/
theorem lookup_cons_of_lt {name : String} {entry : String × α} {rest : List (String × α)}
    (hlt : name < entry.1) (h : (entry :: rest).Pairwise (fun a b => a.1 < b.1)) :
    (entry :: rest).lookup name = none := by
  apply lookup_eq_none_of_lt
  intro other hother
  rcases List.mem_cons.1 hother with rfl | hother
  · exact hlt
  · exact String.lt_trans hlt ((List.pairwise_cons.1 h).1 other hother)

/-- Among increasing entries the one displaced is the one that is found. -/
theorem displaced?_eq_lookup (name : String) {entries : List (String × α)}
    (h : entries.Pairwise (fun a b => a.1 < b.1)) :
    displaced? name entries = entries.lookup name := by
  induction entries with
  | nil => rfl
  | cons first rest ih =>
      obtain ⟨key, stored⟩ := first
      rw [displaced?]
      split
      · rename_i hlt
        rw [lookup_cons_of_lt hlt h]
      split
      · rename_i hlt
        have hne : (name == key) = false := by
          simpa using fun heq => String.lt_irrefl _ (heq ▸ hlt)
        rw [ih (List.pairwise_cons.1 h).2, List.lookup_cons, hne]
      · rename_i hnot hnot'
        obtain rfl : name = key :=
          String.le_antisymm (String.not_lt.1 hnot') (String.not_lt.1 hnot)
        rw [List.lookup_cons_self]

theorem exchange_eq (map : NameMap α) (name : String) (value : α) :
    map.exchange name value = (map.get? name, map.insert name value) := by
  rw [exchange, displaced?_eq_lookup name map.increasing, get?]

theorem lookup_put_self (name : String) (value : α) (entries : List (String × α)) :
    (put name value entries).lookup name = some value := by
  induction entries with
  | nil => simp [put]
  | cons first rest ih =>
      obtain ⟨key, stored⟩ := first
      rw [put]
      split
      · simp
      split
      · rename_i hlt
        have hne : (name == key) = false := by
          simpa using fun h => String.lt_irrefl _ (h ▸ hlt)
        simpa [List.lookup_cons, hne] using ih
      · simp

theorem lookup_put_of_ne {name other : String} (h : other ≠ name) (value : α)
    (entries : List (String × α)) :
    (put name value entries).lookup other = entries.lookup other := by
  have hne : (other == name) = false := by simpa using h
  induction entries with
  | nil => simp [put, List.lookup_cons, hne]
  | cons first rest ih =>
      obtain ⟨key, stored⟩ := first
      rw [put]
      split
      · simp [List.lookup_cons, hne]
      split
      · simp [List.lookup_cons, ih]
      · rename_i hnot hnot'
        obtain rfl : name = key :=
          String.le_antisymm (String.not_lt.1 hnot') (String.not_lt.1 hnot)
        simp [List.lookup_cons, hne]

@[simp] theorem get?_empty (name : String) : (empty : NameMap α).get? name = none := rfl

theorem get?_map (f : α → β) (map : NameMap α) (name : String) :
    (map.map f).get? name = (map.get? name).map f := by
  show (map.entries.map fun entry => (entry.1, f entry.2)).lookup name =
    (map.entries.lookup name).map f
  induction map.entries with
  | nil => rfl
  | cons first rest ih =>
      obtain ⟨key, stored⟩ := first
      rw [List.map_cons, List.lookup_cons, List.lookup_cons, ih]
      cases name == key <;> rfl

@[simp] theorem get?_insert_self (map : NameMap α) (name : String) (value : α) :
    (map.insert name value).get? name = some value :=
  lookup_put_self name value map.entries

theorem get?_insert_of_ne (map : NameMap α) {name other : String} (h : other ≠ name) (value : α) :
    (map.insert name value).get? other = map.get? other :=
  lookup_put_of_ne h value map.entries

theorem get?_insert (map : NameMap α) (name other : String) (value : α) :
    (map.insert name value).get? other = if other = name then some value else map.get? other := by
  split
  · rename_i h
    rw [h, get?_insert_self]
  · rename_i h
    exact get?_insert_of_ne map h value

/-- An entry of a map is what its name is bound to. -/
theorem mem_entries_iff (map : NameMap α) (name : String) (value : α) :
    (name, value) ∈ map.entries ↔ map.get? name = some value := by
  obtain ⟨entries, increasing⟩ := map
  induction entries with
  | nil => simp [get?]
  | cons first rest ih =>
      obtain ⟨key, stored⟩ := first
      rw [List.pairwise_cons] at increasing
      have ih := ih increasing.2
      simp only [get?] at ih ⊢
      by_cases h : name = key
      · subst h
        have hnot : (name, value) ∉ rest := fun hmem =>
          String.lt_irrefl name (increasing.1 (name, value) hmem)
        simp [hnot, eq_comm]
      · have hne : (name == key) = false := by simpa using h
        simp [List.lookup_cons, hne, h, ih]

theorem mem_names_iff (map : NameMap α) (name : String) :
    name ∈ map.names ↔ map.contains name = true := by
  rw [names, List.mem_map, contains, Option.isSome_iff_exists]
  constructor
  · rintro ⟨⟨_, value⟩, hmem, rfl⟩
    exact ⟨value, (mem_entries_iff map _ _).1 hmem⟩
  · rintro ⟨value, h⟩
    exact ⟨(name, value), (mem_entries_iff map _ _).2 h, rfl⟩

/-- The names of a map are strictly increasing, so none is repeated. -/
theorem increasing_names (map : NameMap α) : map.names.Pairwise (· < ·) := by
  rw [names, List.pairwise_map]
  exact map.increasing

end NameMap

end BehaviorTree
