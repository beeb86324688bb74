import BehaviorTree.Proofs.Records
import BehaviorTree.Proofs.Rereading
import BehaviorTree.Proofs.Tagging

/-! # Arguments read back

The text of arguments is read back keyword by keyword. Integers and texts come back as they were. A
finite floating-point number does so if its own text is read as this number (`Binary64.ReadsBack`),
which is up to the reader of numbers; where the text stands makes no difference to it
(`Json.readAs_float`). A number that is not finite has no text of its own. It is written as null,
null is read as no value, and so arguments with such a number are not read back at all. -/

namespace BehaviorTree

/-- The text of a floating-point number is read as this number. -/
def Binary64.ReadsBack (x : Binary64) : Prop :=
  Json.parse (Json.float x).compact = some (.float x)

namespace Json

/-! ## Floating-point numbers -/

/-- A number that is read back on its own is read back wherever it stands. -/
theorem readAs_float {x : Binary64} (h : x.ReadsBack) : ReadAs (.float x) (.float x) := by
  obtain ⟨found, hread⟩ := exists_readAs_float x
  obtain rfl : found = .float x := Option.some.inj ((parse_compact hread).symm.trans h)
  exact hread

/-! ## Maps -/

section Maps

variable {α β : Type}

/-- The text of a map is read as the map of what its values are read as. -/
theorem readAs_ofMap {write found : α → Json} {map : NameMap α}
    (h : ∀ entry ∈ map.entries, ReadAs (write entry.2) (found entry.2)) :
    ReadAs (ofMap write map) (ofMap found map) := by
  have hfields := @ReadAs.object
    (map.entries.map fun entry => (entry.1, write entry.2, found entry.2)) (List.forall_mem_map.2 h)
  rwa [List.map_map, List.map_map] at hfields

theorem mapM_eq_none_of_mem {read : β → Option α} {items : List β} {b : β} (hb : b ∈ items)
    (h : read b = none) : items.mapM read = none := by
  induction items with
  | nil => exact absurd hb List.not_mem_nil
  | cons first rest ih =>
      rw [List.mapM_cons]
      rcases List.mem_cons.1 hb with rfl | hb
      · rw [h]
        rfl
      · rw [ih hb]
        cases read first <;> rfl

/-- A map is not read if one of its values is not. -/
theorem map?_ofMap_eq_none {read : Json → Option α} {write : α → Json} {map : NameMap α}
    {entry : String × α} (hentry : entry ∈ map.entries) (h : read (write entry.2) = none) :
    map? read (ofMap write map) = none := by
  rw [ofMap, map?, mapM_eq_none_of_mem (List.mem_map_of_mem hentry)]
  · rfl
  · dsimp only
    rw [h]
    rfl

end Maps

end Json

open Json

/-! ## Values and arguments -/

namespace Value

/-- What the text of a value is read as. -/
def restored : Value → Json
  | .int n => .integer n.toInt
  | .float x => if x.isFinite then .float x else .null
  | .str s => .string s

variable {v : Value}

theorem readAs_restored (h : ∀ x, v = .float x → x.isFinite = true → x.ReadsBack) :
    ReadAs v.toJson v.restored := by
  cases v with
  | int n => exact readAs_int64 n
  | float x =>
      rw [toJson, restored]
      by_cases hx : x.isFinite = true
      · rw [if_pos hx]
        exact readAs_float (h x rfl hx)
      · rw [if_neg hx]
        exact readAs_float_of_not_finite hx
  | str s => exact .string s

/-- The type of a value is guessed right: integers are tried first, and a finite floating-point
number is never written like one. -/
theorem ofJson?_restored (h : v.IsFinite) : ofJson? v.restored = some v := by
  cases v with
  | int n =>
      have hlow := Int64.le_toInt n
      have hhigh := Int64.toInt_lt n
      rw [restored, ofJson?, if_pos ⟨by omega, by omega⟩, Int64.ofInt_toInt]
  | float x =>
      rw [restored, if_pos (h x rfl)]
      rfl
  | str s => rfl

theorem ofJson?_restored_eq_none {x : Binary64} (hx : x.isFinite = false) :
    ofJson? (restored (.float x)) = none := by
  rw [restored, if_neg (by rw [hx]; exact Bool.false_ne_true)]
  rfl

end Value

/-- Both texts of arguments are read keyword by keyword. -/
theorem Kwargs.parse_toJson {kwargs : Kwargs}
    (hlibrary : ∀ keyword x, kwargs.get? keyword = some (.float x) → x.isFinite = true →
      x.ReadsBack) :
    ∀ text ∈ [kwargs.toJson.compact, kwargs.toJson.pretty],
      parse text = some (Json.ofMap Value.restored kwargs) := by
  have hread : ReadAs kwargs.toJson (Json.ofMap Value.restored kwargs) := by
    apply readAs_ofMap
    rintro ⟨keyword, v⟩ hentry
    apply Value.readAs_restored
    rintro x rfl
    exact hlibrary keyword x ((NameMap.mem_entries_iff ..).1 hentry)
  simp only [List.forall_mem_cons]
  exact ⟨parse_compact hread, (parse_pretty hread).1, List.forall_mem_nil _⟩

section Arguments

variable {config : Config} {path : String} {attributes : NameMap String} {kwargs : Kwargs}

/-- Arguments with finite numbers survive their JSON form: either text is read back as the same
arguments, in which every attribute that takes part has the value and the type that it was bound to,
whatever text it had. Of the finite floating-point numbers it is supposed that each is read back on
its own. Arguments with a number that is not finite are read back from neither text. -/
theorem arguments_read_back (h : arguments config path attributes = .ok kwargs)
    (hlibrary : ∀ keyword x, kwargs.get? keyword = some (.float x) → x.isFinite = true →
      x.ReadsBack) :
    ((∀ name value, TakesPart config attributes name → HasValue config attributes name value →
        value.IsFinite) →
      ∃ restored, ReadBack Kwargs.ofJson? kwargs.toJson restored ∧ restored = kwargs ∧
        ∀ name value, TakesPart config attributes name → HasValue config attributes name value →
          restored.get? (Text.lowercase name) = some value) ∧
    ∀ name x, TakesPart config attributes name → HasValue config attributes name (.float x) →
      x.isFinite = false → ∀ text ∈ [kwargs.toJson.compact, kwargs.toJson.pretty],
        (parse text).bind Kwargs.ofJson? = none := by
  have hread := Kwargs.parse_toJson hlibrary
  have hentries : ∀ name value, TakesPart config attributes name →
      HasValue config attributes name value →
        kwargs.get? (Text.lowercase name) = some value := by
    intro name value hpart hvalue
    exact (get?_arguments_iff h).2 ⟨name, hpart, rfl, hvalue⟩
  constructor
  · intro hfinite
    refine ⟨kwargs, ?_, rfl, hentries⟩
    intro text htext
    rw [hread text htext]
    apply map?_ofMap
    rintro ⟨keyword, v⟩ hentry
    -- Every argument comes from an attribute, and those are finite.
    obtain ⟨name, hpart, -, hvalue⟩ :=
      (get?_arguments_iff h).1 ((NameMap.mem_entries_iff ..).1 hentry)
    exact Value.ofJson?_restored (hfinite name v hpart hvalue)
  · intro name x hpart hvalue hx text htext
    rw [hread text htext]
    have hentry := (NameMap.mem_entries_iff ..).2 (hentries name (.float x) hpart hvalue)
    exact map?_ofMap_eq_none hentry (Value.ofJson?_restored_eq_none hx)

/-- Attributes of all types; the floating-point number has the value of an integer. -/
def stepsAtRate : NameMap String :=
  .ofList [("RATE", " +2e0"), ("_RATEType", "float"), ("steps", " -7 "), ("_stepsType", "int"),
    ("label", "2.0"), ("_labelType", "string")]

theorem arguments_read_back_all_types : ∃ kwargs restored,
    arguments .default "Walk" stepsAtRate = .ok kwargs ∧
      ReadBack Kwargs.ofJson? kwargs.toJson restored ∧ restored = kwargs ∧
      kwargs.entries =
        [("label", .str "2.0"), ("rate", .float (.ofInt 2)), ("steps", .int (-7))] := by
  have h : arguments .default "Walk" stepsAtRate =
      .ok (.ofList [("label", .str "2.0"), ("rate", .float (.ofInt 2)), ("steps", .int (-7))]) := by
    decide +kernel
  generalize hkwargs : NameMap.ofList [("label", Value.str "2.0"), ("rate", .float (.ofInt 2)),
    ("steps", .int (-7))] = kwargs at h
  have hentries : kwargs.entries =
      [("label", .str "2.0"), ("rate", .float (.ofInt 2)), ("steps", .int (-7))] := by
    rw [← hkwargs]
    decide +kernel
  have hrate : ∀ keyword x, kwargs.get? keyword = some (.float x) → x = .ofInt 2 := by
    intro keyword x hx
    have hentry := (NameMap.mem_entries_iff ..).2 hx
    rw [hentries] at hentry
    simp_all
  have hreads : (Binary64.ofInt 2).ReadsBack := by
    have htext : (Json.float (.ofInt 2)).compact = "2.0" := by
      decide +kernel
    rw [Binary64.ReadsBack, htext]
    rfl
  obtain ⟨hfinite, -⟩ := arguments_read_back h fun keyword x hx _ => hrate keyword x hx ▸ hreads
  obtain ⟨restored, hrestored, heq, -⟩ := hfinite fun name value hpart hvalue => by
    rintro x rfl
    rw [hrate _ x ((get?_arguments_iff h).2 ⟨name, hpart, rfl, hvalue⟩)]
    decide +kernel
  exact ⟨kwargs, restored, h, hrestored, heq, hentries⟩

def infiniteSpeed : NameMap String := .ofList [("Speed", "inf"), ("_SpeedType", "float")]

/-- An infinity is bound, and written as null; of its text nothing is read back. -/
theorem arguments_infinite_not_read_back : ∃ kwargs,
    arguments .default "Move" infiniteSpeed = .ok kwargs ∧
      (∀ keyword v, kwargs.get? keyword = some v → v = .float (.infinity false)) ∧
      kwargs.get? "speed" = some (.float (.infinity false)) ∧
      kwargs.toJson.compact = "\x7b\"speed\":null\x7d" ∧
      (parse kwargs.toJson.compact).bind Kwargs.ofJson? = none := by
  have h : arguments .default "Move" infiniteSpeed =
      .ok (.ofList [("speed", .float (.infinity false))]) := by
    decide +kernel
  refine ⟨_, h, ?_, rfl, by decide +kernel, by decide +kernel⟩
  intro keyword v hv
  have hentry := (NameMap.mem_entries_iff ..).2 hv
  exact (Prod.mk.inj (List.mem_singleton.1 hentry)).2

end Arguments

end BehaviorTree
