import BehaviorTree.Agent
import BehaviorTree.Proofs.Names
import Mathlib.Data.List.Induction

/-! # Tables of capabilities in use

Whoever has several tables registers capabilities, looks them up, copies tables, and invokes what
was looked up at any later time. What a table holds follows from the history of these steps alone: a
name has the capability registered under it last, and a copy starts with what its original held when
it was made (`Workbench.Finds`). What was looked up stays what it was (`Workbench.Obtained`),
whatever happens to the tables afterwards. -/

namespace BehaviorTree

/-- Tables in use: the state of the agent, the tables there are, and what lookups have found. -/
structure Workbench (σ : Type) where
  state : σ
  tables : List (CapabilityTable σ)
  obtained : List (Option (Capability σ))

namespace Workbench

variable {σ : Type}

/-- What is done with tables. Tables, and lookups by `get`, are numbered from 0 in the order in
which they are made. To register a function is to register the capability that it is. -/
inductive Step (σ : Type) where
  | make
  | register (table : Nat) (name : String) (capability : Capability σ)
  | get (table : Nat) (name : String)
  | contains (table : Nat) (name : String)
  | clone (table : Nat)
  | invoke (place : Nat) (kwargs : Kwargs)

/-- What a step answers. An invocation of what was not found has no reply. -/
inductive Answer (σ : Type) where
  | done
  | table (number : Nat)
  | found (capability : Option (Capability σ))
  | contained (answer : Bool)
  | reply (reply : Option (Except Failure Bool))

/-- An agent in this state, and no tables yet. -/
def ofState (state : σ) : Workbench σ := ⟨state, [], []⟩

/-- One step; there is none with a table or a lookup that has not been made. -/
def perform (bench : Workbench σ) : Step σ → Option (Answer σ × Workbench σ)
  | .make =>
      some (.table bench.tables.length, { bench with tables := bench.tables ++ [.empty] })
  | .register table name capability => do
      let held ← bench.tables[table]?
      return (.done, { bench with tables := bench.tables.set table (held.insert name capability) })
  | .get table name => do
      let held ← bench.tables[table]?
      return (.found (held.get? name),
        { bench with obtained := bench.obtained ++ [held.get? name] })
  | .contains table name => do
      let held ← bench.tables[table]?
      return (.contained (held.contains name), bench)
  | .clone table => do
      let held ← bench.tables[table]?
      return (.table bench.tables.length, { bench with tables := bench.tables ++ [held] })
  | .invoke place kwargs => do
      match ← bench.obtained[place]? with
      | none => return (.reply none, bench)
      | some capability =>
          let (reply, state) := capability.invoke bench.state kwargs
          return (.reply (some reply), { bench with state })

def run (bench : Workbench σ) (steps : List (Step σ)) : Option (Workbench σ) :=
  steps.foldlM (fun bench step => (bench.perform step).map (·.2)) bench

/-! ## What a history tells -/

def Step.makes : Step σ → Bool
  | .make | .clone _ => true
  | _ => false

/-- Whether a step looks a capability up and keeps what it finds. -/
def Step.looksUp : Step σ → Bool
  | .get _ _ => true
  | _ => false

/-- The number of tables that a history makes. -/
def made (history : List (Step σ)) : Nat := history.countP Step.makes

/-- The number of lookups that a history keeps. -/
def lookups (history : List (Step σ)) : Nat := history.countP Step.looksUp

/-- After a history a capability stands under a name in a table: it was the last one registered
there, or it stood in the original when the table was copied, and nothing was registered there
since. -/
inductive Finds : List (Step σ) → Nat → String → Capability σ → Prop where
  | registered {before after : List (Step σ)} {table : Nat} {name : String} {c : Capability σ}
      (last : ∀ d, .register table name d ∉ after) :
      Finds (before ++ .register table name c :: after) table name c
  | copied {before after : List (Step σ)} {original : Nat} {name : String} {c : Capability σ}
      (held : Finds before original name c) (last : ∀ d, .register (made before) name d ∉ after) :
      Finds (before ++ .clone original :: after) (made before) name c

/-- A lookup of a history has found this at its own time, or nothing. -/
inductive Obtained : List (Step σ) → Nat → Option (Capability σ) → Prop where
  | get {before after : List (Step σ)} {table : Nat} {name : String}
      {found : Option (Capability σ)} (finds : ∀ c, found = some c ↔ Finds before table name c) :
      Obtained (before ++ .get table name :: after) (lookups before) found

/-- The tables and lookups that a step needs have been made. -/
def Step.Refers (tables lookups : Nat) : Step σ → Prop
  | .make => True
  | .register table _ _ | .get table _ | .contains table _ | .clone table => table < tables
  | .invoke place _ => place < lookups

/-- Every step needs only tables and lookups that the steps before it have made. -/
def Scoped (history : List (Step σ)) : Prop :=
  ∀ before step after, history = before ++ step :: after →
    step.Refers (made before) (lookups before)

/-- What a step answers after a history, and the state in which it leaves an agent. -/
inductive Answers (history : List (Step σ)) (state : σ) : Step σ → Answer σ → σ → Prop where
  | make : Answers history state .make (.table (made history)) state
  | register (table : Nat) (name : String) (c : Capability σ) :
      Answers history state (.register table name c) .done state
  | get {table : Nat} {name : String} {found : Option (Capability σ)}
      (finds : ∀ c, found = some c ↔ Finds history table name c) :
      Answers history state (.get table name) (.found found) state
  | contains {table : Nat} {name : String} {answer : Bool}
      (finds : answer = true ↔ ∃ c, Finds history table name c) :
      Answers history state (.contains table name) (.contained answer) state
  | clone (table : Nat) : Answers history state (.clone table) (.table (made history)) state
  | invoke {place : Nat} {c : Capability σ} (obtained : Obtained history place (some c))
      (kwargs : Kwargs) :
      Answers history state (.invoke place kwargs) (.reply (some (c.invoke state kwargs).1))
        (c.invoke state kwargs).2
  | missing {place : Nat} (obtained : Obtained history place none) (kwargs : Kwargs) :
      Answers history state (.invoke place kwargs) (.reply none) state

/-! ## Histories step by step -/

section Concat

variable {history : List (Step σ)} {step : Step σ}

/-- An item of a list with one more item is that one, or was there before. -/
theorem eq_or_exists_of_concat_eq {α : Type} {l before after : List α} {a x : α}
    (h : l ++ [a] = before ++ x :: after) :
    (l = before ∧ a = x ∧ after = []) ∨ ∃ rest, l = before ++ x :: rest ∧ after = rest ++ [a] := by
  rcases List.eq_nil_or_concat after with rfl | ⟨rest, last, rfl⟩
  · obtain ⟨rfl, hlast⟩ := List.append_inj' h rfl
    exact .inl ⟨rfl, List.head_eq_of_cons_eq hlast, rfl⟩
  · rw [List.concat_eq_append] at h ⊢
    rw [← List.cons_append, ← List.append_assoc] at h
    obtain ⟨rfl, hlast⟩ := List.append_inj' h rfl
    exact .inr ⟨rest, rfl, by rw [List.head_eq_of_cons_eq hlast]⟩

theorem made_concat : made (history ++ [step]) = made history + if step.makes then 1 else 0 := by
  simp [made, List.countP_append, List.countP_cons]

theorem lookups_concat :
    lookups (history ++ [step]) = lookups history + if step.looksUp then 1 else 0 := by
  simp [lookups, List.countP_append, List.countP_cons]

theorem not_finds_nil {table : Nat} {name : String} {c : Capability σ} :
    ¬ Finds [] table name c := by
  generalize hwhole : ([] : List (Step σ)) = whole
  rintro (_ | _) <;> simp at hwhole

theorem not_obtained_nil {place : Nat} {found : Option (Capability σ)} :
    ¬ Obtained [] place found := by
  generalize hwhole : ([] : List (Step σ)) = whole
  rintro ⟨finds⟩
  simp at hwhole

theorem scoped_nil : Scoped ([] : List (Step σ)) := by
  intro before step after hsplit
  simp at hsplit

/-- A step registers a capability, fills a copy, or leaves what was there. -/
theorem finds_concat_iff {table : Nat} {name : String} {c : Capability σ} :
    Finds (history ++ [step]) table name c ↔
      step = .register table name c ∨
      (∃ original, step = .clone original ∧ table = made history ∧
        Finds history original name c) ∨
      (∀ d, step ≠ .register table name d) ∧ Finds history table name c := by
  constructor
  · generalize hwhole : history ++ [step] = whole
    intro h
    -- The step that decides is the new one, or an earlier one that the new one does not undo.
    cases h with
    | registered last =>
        obtain ⟨rfl, rfl, rfl⟩ | ⟨rest, rfl, rfl⟩ := eq_or_exists_of_concat_eq hwhole
        · exact .inl rfl
        · refine .inr (.inr ⟨?_, .registered fun d hd => last d (List.mem_append_left _ hd)⟩)
          rintro d rfl
          exact last d List.mem_concat_self
    | copied held last =>
        obtain ⟨rfl, rfl, rfl⟩ | ⟨rest, rfl, rfl⟩ := eq_or_exists_of_concat_eq hwhole
        · exact .inr (.inl ⟨_, rfl, rfl, held⟩)
        · refine .inr (.inr ⟨?_, .copied held fun d hd => last d (List.mem_append_left _ hd)⟩)
          rintro d rfl
          exact last d List.mem_concat_self
  · rintro (rfl | ⟨original, rfl, rfl, held⟩ | ⟨hother, h⟩)
    · exact .registered fun _ => List.not_mem_nil
    · exact .copied held fun _ => List.not_mem_nil
    · have hlast : ∀ {after : List (Step σ)}, (∀ d, .register table name d ∉ after) →
          ∀ d, .register table name d ∉ after ++ [step] := by
        intro after hafter d hd
        rcases List.mem_append.1 hd with hd | hd
        · exact hafter d hd
        · exact hother d (List.mem_singleton.1 hd).symm
      cases h with
      | registered last =>
          rw [List.append_assoc, List.cons_append]
          exact .registered (hlast last)
      | copied held last =>
          rw [List.append_assoc, List.cons_append]
          exact .copied held (hlast last)

theorem obtained_concat_iff {place : Nat} {found : Option (Capability σ)} :
    Obtained (history ++ [step]) place found ↔
      Obtained history place found ∨ ∃ table name, step = .get table name ∧
        place = lookups history ∧ ∀ c, found = some c ↔ Finds history table name c := by
  constructor
  · generalize hwhole : history ++ [step] = whole
    rintro ⟨finds⟩
    obtain ⟨rfl, rfl, rfl⟩ | ⟨rest, rfl, rfl⟩ := eq_or_exists_of_concat_eq hwhole
    · exact .inr ⟨_, _, rfl, rfl, finds⟩
    · exact .inl (.get finds)
  · rintro (h | ⟨table, name, rfl, rfl, finds⟩)
    · obtain ⟨finds⟩ := h
      rw [List.append_assoc, List.cons_append]
      exact .get finds
    · exact .get finds

theorem scoped_concat_iff : Scoped (history ++ [step]) ↔
    Scoped history ∧ step.Refers (made history) (lookups history) := by
  constructor
  · intro h
    refine ⟨fun before step' after hsplit => ?_, h history step [] rfl⟩
    apply h before step' (after ++ [step])
    rw [hsplit, List.append_assoc, List.cons_append]
  · rintro ⟨hscoped, hstep⟩ before step' after hsplit
    obtain ⟨rfl, rfl, rfl⟩ | ⟨rest, rfl, rfl⟩ := eq_or_exists_of_concat_eq hsplit
    · exact hstep
    · exact hscoped before step' rest rfl

theorem run_concat (bench : Workbench σ) : bench.run (history ++ [step]) =
    (bench.run history).bind fun last => (last.perform step).map (·.2) := by
  rw [run, List.foldlM_append]
  simp [run]

end Concat

/-! ## What there is follows the history -/

theorem getElem?_concat_eq_some_iff {α : Type} {l : List α} {a x : α} {i : Nat} :
    (l ++ [a])[i]? = some x ↔ l[i]? = some x ∨ i = l.length ∧ x = a := by
  rw [List.getElem?_append, List.getElem?_singleton]
  split
  · rename_i hlt
    simp [Nat.ne_of_lt hlt]
  · rename_i hge
    have hlast : i - l.length = 0 ↔ i = l.length := by omega
    simp [List.getElem?_eq_none (Nat.not_lt.1 hge), hlast, eq_comm]

/-- Tables are those that a history makes, and hold what it says. -/
structure TablesFollow (history : List (Step σ)) (tables : List (CapabilityTable σ)) : Prop where
  length : tables.length = made history
  finds : ∀ table name c, (∃ held, tables[table]? = some held ∧ held.get? name = some c) ↔
    Finds history table name c

/-- Lookups have found what a history says. -/
structure LookupsFollow (history : List (Step σ)) (obtained : List (Option (Capability σ))) :
    Prop where
  length : obtained.length = lookups history
  obtained : ∀ place found, obtained[place]? = some found ↔ Obtained history place found

section Tables

variable {history : List (Step σ)} {tables : List (CapabilityTable σ)} {step : Step σ}
  {table : Nat} {held : CapabilityTable σ} {name : String} {c : Capability σ}

theorem tablesFollow_nil : TablesFollow ([] : List (Step σ)) [] where
  length := rfl
  finds table name c := by
    apply iff_of_false _ not_finds_nil
    rintro ⟨held, hheld, -⟩
    cases hheld

namespace TablesFollow

theorem get?_eq_some_iff (h : TablesFollow history tables) (hheld : tables[table]? = some held) :
    held.get? name = some c ↔ Finds history table name c := by
  rw [← h.finds, hheld]
  simp

theorem contains_iff (h : TablesFollow history tables) (hheld : tables[table]? = some held) :
    held.contains name = true ↔ ∃ c, Finds history table name c := by
  rw [NameMap.contains, Option.isSome_iff_exists]
  exact exists_congr fun c => h.get?_eq_some_iff hheld

/-- Most steps change no table. -/
theorem still (h : TablesFollow history tables) (hmakes : step.makes = false)
    (hregister : ∀ table name d, step ≠ .register table name d) :
    TablesFollow (history ++ [step]) tables where
  length := by
    rw [made_concat, hmakes, h.length]
    rfl
  finds table name c := by
    rw [h.finds, finds_concat_iff]
    constructor
    · intro hfinds
      exact .inr (.inr ⟨hregister table name, hfinds⟩)
    · rintro (rfl | ⟨original, rfl, -⟩ | ⟨-, hfinds⟩)
      · exact absurd rfl (hregister table name c)
      · cases hmakes
      · exact hfinds

theorem make (h : TablesFollow history tables) :
    TablesFollow (history ++ [.make]) (tables ++ [.empty]) where
  length := by
    rw [made_concat, List.length_append, h.length]
    rfl
  finds table name c := by
    rw [finds_concat_iff, ← h.finds]
    simp only [getElem?_concat_eq_some_iff]
    constructor
    · rintro ⟨held, hheld | ⟨-, rfl⟩, hfound⟩
      · exact .inr (.inr ⟨by simp, held, hheld, hfound⟩)
      · cases hfound
    · rintro (hstep | ⟨_, hstep, -⟩ | ⟨-, held, hheld, hfound⟩)
      · cases hstep
      · cases hstep
      · exact ⟨held, .inl hheld, hfound⟩

/-- A copy is a new table that starts with what its original holds. -/
theorem clone (h : TablesFollow history tables) (hheld : tables[table]? = some held) :
    TablesFollow (history ++ [.clone table]) (tables ++ [held]) where
  length := by
    rw [made_concat, List.length_append, h.length]
    rfl
  finds other name c := by
    rw [finds_concat_iff, ← h.length]
    simp only [getElem?_concat_eq_some_iff]
    constructor
    · rintro ⟨found, hfound | ⟨rfl, rfl⟩, hc⟩
      · exact .inr (.inr ⟨by simp, (h.finds other name c).1 ⟨found, hfound, hc⟩⟩)
      · exact .inr (.inl ⟨table, rfl, rfl, (h.get?_eq_some_iff hheld).1 hc⟩)
    · rintro (hstep | ⟨original, hstep, rfl, hfinds⟩ | ⟨-, hfinds⟩)
      · cases hstep
      · cases hstep
        exact ⟨held, .inr ⟨rfl, rfl⟩, (h.get?_eq_some_iff hheld).2 hfinds⟩
      · obtain ⟨found, hfound, hc⟩ := (h.finds other name c).2 hfinds
        exact ⟨found, .inl hfound, hc⟩

/-- Registering changes what one name finds in one table. -/
theorem register (h : TablesFollow history tables) (hheld : tables[table]? = some held)
    (name : String) (d : Capability σ) :
    TablesFollow (history ++ [.register table name d]) (tables.set table (held.insert name d)) where
  length := by
    rw [made_concat, List.length_set, h.length]
    rfl
  finds other key c := by
    have hlt : table < tables.length := (List.getElem?_eq_some_iff.1 hheld).1
    rw [finds_concat_iff]
    by_cases htable : other = table
    · subst htable
      rw [List.getElem?_set_self hlt]
      by_cases hname : key = name
      · subst hname
        simp [eq_comm]
      · simp [NameMap.get?_insert_of_ne _ hname, Ne.symm hname, h.get?_eq_some_iff hheld]
    · rw [List.getElem?_set_ne (Ne.symm htable), h.finds]
      simp [Ne.symm htable]

end TablesFollow
end Tables

section Lookups

variable {history : List (Step σ)} {obtained : List (Option (Capability σ))} {step : Step σ}

theorem lookupsFollow_nil : LookupsFollow ([] : List (Step σ)) [] where
  length := rfl
  obtained place found := by
    apply iff_of_false _ not_obtained_nil
    rintro ⟨⟩

/-- Whatever is done with the tables, what was looked up stays what it was. -/
theorem LookupsFollow.still (h : LookupsFollow history obtained) (hlooks : step.looksUp = false) :
    LookupsFollow (history ++ [step]) obtained where
  length := by
    rw [lookups_concat, hlooks, h.length]
    rfl
  obtained place found := by
    rw [h.obtained, obtained_concat_iff]
    constructor
    · exact .inl
    · rintro (hobtained | ⟨table, name, rfl, -⟩)
      · exact hobtained
      · cases hlooks

theorem LookupsFollow.get {tables : List (CapabilityTable σ)} {table : Nat}
    {held : CapabilityTable σ} (h : LookupsFollow history obtained)
    (htables : TablesFollow history tables) (hheld : tables[table]? = some held) (name : String) :
    LookupsFollow (history ++ [.get table name]) (obtained ++ [held.get? name]) where
  length := by
    rw [lookups_concat, List.length_append, h.length]
    rfl
  obtained place found := by
    have hfinds : (∀ c, found = some c ↔ Finds history table name c) ↔ found = held.get? name := by
      simp only [← htables.get?_eq_some_iff hheld]
      exact ⟨Option.ext, fun heq c => by rw [heq]⟩
    rw [getElem?_concat_eq_some_iff, obtained_concat_iff, h.obtained, h.length, ← hfinds]
    constructor
    · rintro (hobtained | ⟨rfl, hfound⟩)
      · exact .inl hobtained
      · exact .inr ⟨table, name, rfl, rfl, hfound⟩
    · rintro (hobtained | ⟨_, _, hstep, rfl, hfound⟩)
      · exact .inl hobtained
      · cases hstep
        exact .inr ⟨rfl, hfound⟩

end Lookups

/-! ## Runs -/

section Runs

variable {history : List (Step σ)} {bench next : Workbench σ} {step : Step σ} {answer : Answer σ}

/-- The tables and the lookups of a bench follow a history. -/
structure Follows (history : List (Step σ)) (bench : Workbench σ) : Prop where
  tables : TablesFollow history bench.tables
  obtained : LookupsFollow history bench.obtained

theorem follows_ofState (state : σ) : Follows [] (ofState state) :=
  ⟨tablesFollow_nil, lookupsFollow_nil⟩

/-- What one step does: it answers by the history, it follows it, it changes no table in which it
does not register anything, and it keeps all lookups as they were. -/
structure Goes (history : List (Step σ)) (bench : Workbench σ) (step : Step σ) (answer : Answer σ)
    (next : Workbench σ) : Prop where
  answers : Answers history bench.state step answer next.state
  follows : Follows (history ++ [step]) next
  tables : ∀ table < bench.tables.length, (∀ name c, step ≠ .register table name c) →
    next.tables[table]? = bench.tables[table]?
  obtained : bench.obtained <+: next.obtained

theorem Follows.goes (h : Follows history bench)
    (hstep : bench.perform step = some (answer, next)) : Goes history bench step answer next := by
  cases step with
  | make =>
      cases hstep
      refine ⟨?_, ⟨h.tables.make, h.obtained.still rfl⟩, ?_, List.prefix_rfl⟩
      · rw [h.tables.length]
        exact .make
      · intro table hlt _
        exact List.getElem?_append_left hlt
  | register table name c =>
      obtain ⟨held, hheld, hdone⟩ := Option.bind_eq_some_iff.1 hstep
      cases hdone
      refine ⟨.register table name c, ⟨h.tables.register hheld name c, h.obtained.still rfl⟩, ?_,
        List.prefix_rfl⟩
      intro other _ hother
      apply List.getElem?_set_ne
      rintro rfl
      exact hother name c rfl
  | get table name =>
      obtain ⟨held, hheld, hdone⟩ := Option.bind_eq_some_iff.1 hstep
      cases hdone
      refine ⟨.get fun c => h.tables.get?_eq_some_iff hheld,
        ⟨h.tables.still rfl (by simp), h.obtained.get h.tables hheld name⟩, fun _ _ _ => rfl,
        List.prefix_append _ _⟩
  | contains table name =>
      obtain ⟨held, hheld, hdone⟩ := Option.bind_eq_some_iff.1 hstep
      cases hdone
      exact ⟨.contains (h.tables.contains_iff hheld),
        ⟨h.tables.still rfl (by simp), h.obtained.still rfl⟩, fun _ _ _ => rfl, List.prefix_rfl⟩
  | clone table =>
      obtain ⟨held, hheld, hdone⟩ := Option.bind_eq_some_iff.1 hstep
      cases hdone
      refine ⟨?_, ⟨h.tables.clone hheld, h.obtained.still rfl⟩, ?_, List.prefix_rfl⟩
      · rw [h.tables.length]
        exact .clone table
      · intro other hlt _
        exact List.getElem?_append_left hlt
  | invoke place kwargs =>
      obtain ⟨found, hfound, hdone⟩ := Option.bind_eq_some_iff.1 hstep
      have hobtained : Obtained history place found := (h.obtained.obtained place found).1 hfound
      cases found with
      | none =>
          cases hdone
          exact ⟨.missing hobtained kwargs, ⟨h.tables.still rfl (by simp), h.obtained.still rfl⟩,
            fun _ _ _ => rfl, List.prefix_rfl⟩
      | some c =>
          cases hdone
          exact ⟨.invoke hobtained kwargs, ⟨h.tables.still rfl (by simp), h.obtained.still rfl⟩,
            fun _ _ _ => rfl, List.prefix_rfl⟩

theorem isSome_bind_getElem?_iff {α β : Type} {l : List α} {i : Nat} {f : α → Option β}
    (hf : ∀ x, (f x).isSome = true) : (l[i]? >>= f).isSome = true ↔ i < l.length := by
  cases hi : l[i]? with
  | none => exact iff_of_false Bool.false_ne_true (Nat.not_lt.2 (List.getElem?_eq_none_iff.1 hi))
  | some x => exact iff_of_true (hf x) (List.getElem?_eq_some_iff.1 hi).1

/-- A step can be made when the table or the lookup that it needs is there. -/
theorem isSome_perform_iff : (bench.perform step).isSome = true ↔
    step.Refers bench.tables.length bench.obtained.length := by
  cases step with
  | make => exact iff_of_true rfl trivial
  | register | get | contains | clone => exact isSome_bind_getElem?_iff fun _ => rfl
  | invoke place kwargs =>
      apply isSome_bind_getElem?_iff
      rintro (_ | c) <;> rfl

theorem follows_of_run {state : σ} (hrun : (ofState state).run history = some bench) :
    Follows history bench := by
  induction history using List.reverseRecOn generalizing bench with
  | nil =>
      cases hrun
      exact follows_ofState state
  | append_singleton history step ih =>
      rw [run_concat] at hrun
      obtain ⟨last, hlast, hdone⟩ := Option.bind_eq_some_iff.1 hrun
      obtain ⟨⟨answer, next⟩, hstep, rfl⟩ := Option.map_eq_some_iff.1 hdone
      exact ((ih hlast).goes hstep).follows

theorem isSome_run_iff {state : σ} :
    ((ofState state).run history).isSome = true ↔ Scoped history := by
  induction history using List.reverseRecOn with
  | nil => exact iff_of_true rfl scoped_nil
  | append_singleton history step ih =>
      rw [run_concat, scoped_concat_iff, ← ih]
      cases hlast : (ofState state).run history with
      | none => simp
      | some last =>
          obtain ⟨htables, hobtained⟩ := follows_of_run hlast
          rw [Option.bind_some, Option.isSome_map, isSome_perform_iff, htables.length,
            hobtained.length]
          simp

/-- What a table lists is what can be found in it. -/
structure Lists (history : List (Step σ)) (table : Nat) (held : CapabilityTable σ) : Prop where
  increasing : held.names.Pairwise (· < ·)
  names : ∀ name, name ∈ held.names ↔ ∃ c, Finds history table name c
  contains : ∀ name, held.contains name = true ↔ ∃ c, Finds history table name c
  size : held.size = held.names.length
  isEmpty : held.isEmpty = true ↔ ∀ name c, ¬ Finds history table name c

theorem TablesFollow.lists {tables : List (CapabilityTable σ)} (h : TablesFollow history tables)
    {table : Nat} {held : CapabilityTable σ} (hheld : tables[table]? = some held) :
    Lists history table held := by
  have hnames : ∀ name, name ∈ held.names ↔ ∃ c, Finds history table name c := fun name => by
    rw [NameMap.mem_names_iff, h.contains_iff hheld]
  refine ⟨held.increasing_names, hnames, fun name => h.contains_iff hheld, ?_, ?_⟩
  · rw [NameMap.size, NameMap.names, List.length_map]
  · have hempty : held.isEmpty = true ↔ held.names = [] := by
      rw [NameMap.isEmpty, NameMap.names, List.isEmpty_iff, List.map_eq_nil_iff]
    rw [hempty, List.eq_nil_iff_forall_not_mem]
    simp only [hnames, not_exists]

/-- Tables of capabilities, whatever is done with them and in whatever order. All steps can be made
that need only tables and lookups made before. A name is found in a table as the capability that was
registered under it there last, or else as what the original of a copy held at the moment of
copying. After every step a table lists exactly the names that can be found in it, in strictly
increasing order, its size is their number, and it is empty when there is none. A lookup keeps what
it found at its own time: an invocation of it is one of that capability, in the state that the agent
has by then. And the next step answers by the history, changes no table but the one in which it
registers, and no lookup. -/
theorem tables_follow_history (state : σ) (history : List (Step σ)) :
    (((ofState state).run history).isSome = true ↔ Scoped history) ∧
    ∀ bench, (ofState state).run history = some bench →
      (∀ table held, bench.tables[table]? = some held →
        (∀ name c, held.get? name = some c ↔ Finds history table name c) ∧
        Lists history table held) ∧
      (∀ place found, bench.obtained[place]? = some found ↔ Obtained history place found) ∧
      ∀ step answer next, bench.perform step = some (answer, next) →
        Goes history bench step answer next := by
  refine ⟨isSome_run_iff, ?_⟩
  intro bench hrun
  have hfollows : Follows history bench := follows_of_run hrun
  refine ⟨?_, hfollows.obtained.obtained, fun step answer next hstep => hfollows.goes hstep⟩
  intro table held hheld
  exact ⟨fun name c => hfollows.tables.get?_eq_some_iff hheld, hfollows.tables.lists hheld⟩

end Runs

/-- A capability is looked up, its table is copied, and only then it is replaced: the copy and the
lookup still have it. -/
theorem tables_follow_history_replaced :
    ∃ (go jam : Capability Int) (history : List (Step Int)) (bench next : Workbench Int),
      history = [.make, .register 0 "go" go, .get 0 "go", .clone 0, .register 0 "go" jam] ∧
      (ofState 5).run history = some bench ∧
      Finds history 0 "go" jam ∧ Finds history 1 "go" go ∧ Obtained history 0 (some go) ∧
      (go.invoke bench.state .empty).1 ≠ (jam.invoke bench.state .empty).1 ∧
      bench.perform (.invoke 0 .empty) =
        some (.reply (some (go.invoke bench.state .empty).1), next) ∧
      Goes history bench (.invoke 0 .empty) (.reply (some (go.invoke bench.state .empty).1))
        next := by
  let go : Capability Int := ⟨fun place _ => (.ok true, place + 1)⟩
  let jam : Capability Int := ⟨fun place _ => (.error ⟨"jammed"⟩, place)⟩
  let history : List (Step Int) :=
    [.make, .register 0 "go" go, .get 0 "go", .clone 0, .register 0 "go" jam]
  let original : CapabilityTable Int := NameMap.empty.insert "go" go
  let bench : Workbench Int := ⟨5, [original.insert "go" jam, original], [some go]⟩
  have hrun : (ofState 5).run history = some bench := rfl
  have hstep : bench.perform (.invoke 0 .empty) =
      some (.reply (some (go.invoke bench.state .empty).1), { bench with state := 6 }) := rfl
  obtain ⟨htables, hobtained, hgoes⟩ := (tables_follow_history 5 history).2 bench hrun
  have hreplaced : Finds history 0 "go" jam :=
    ((htables 0 (original.insert "go" jam) rfl).1 "go" jam).1 (NameMap.get?_insert_self _ _ _)
  have hcopied : Finds history 1 "go" go :=
    ((htables 1 original rfl).1 "go" go).1 (NameMap.get?_insert_self _ _ _)
  exact ⟨go, jam, history, bench, _, rfl, hrun, hreplaced, hcopied,
    (hobtained 0 (some go)).1 rfl, by decide, hstep, hgoes _ _ _ hstep⟩

end Workbench
end BehaviorTree
