import BehaviorTree.Json.Forms
import BehaviorTree.Proofs.Names
import BehaviorTree.Proofs.Parsing
import BehaviorTree.Proofs.Position

/-! # Reading records back

A record is written under the names of its fields or, in short, by their places alone. Either shape
gives every field its value again, so what was written to JSON is read back unchanged
(`json_forms_lose_nothing`). Two things take part besides: fields with the default value may be
missing from settings, and descriptions are read only as deep as the limit on nesting lets them. -/

namespace BehaviorTree

/-! ## Fields -/

section Entries

variable {α β γ : Type}

theorem lookup_of_mem {entries : List (String × α)} (h : (entries.map (·.1)).Nodup)
    {entry : String × α} (hentry : entry ∈ entries) :
    entries.lookup entry.1 = some entry.2 := by
  induction entries with
  | nil => exact absurd hentry List.not_mem_nil
  | cons first rest ih =>
      rw [List.map_cons, List.nodup_cons] at h
      rcases List.mem_cons.1 hentry with rfl | hentry
      · exact List.lookup_cons_self
      · have hne : (entry.1 == first.1) = false := by
          rw [beq_eq_false_iff_ne]
          exact fun heq => h.1 (heq ▸ List.mem_map_of_mem hentry)
        rw [List.lookup_cons, hne]
        exact ih h.2 hentry

/-- Where no name is repeated, a name has the one entry that stands first for it, or none. -/
theorem filter_eq_of_nodup {entries : List (String × α)} (h : (entries.map (·.1)).Nodup)
    (name : String) :
    entries.filter (·.1 == name) = ((entries.lookup name).map (name, ·)).toList := by
  cases hvalue : entries.lookup name with
  | none =>
      refine List.filter_eq_nil_iff.2 ?_
      intro entry hentry hname
      rw [← eq_of_beq hname, lookup_of_mem h hentry] at hvalue
      cases hvalue
  | some value =>
      obtain ⟨before, after, rfl, hbefore⟩ := List.lookup_eq_some_iff.1 hvalue
      rw [List.map_append, List.map_cons, List.nodup_append', List.nodup_cons] at h
      have hbefore : before.filter (·.1 == name) = [] := by
        rw [List.filter_eq_nil_iff]
        intro entry hentry hname
        have hne := hbefore entry hentry
        simp [eq_of_beq hname] at hne
      have hafter : after.filter (·.1 == name) = [] := by
        rw [List.filter_eq_nil_iff]
        intro entry hentry hname
        exact h.2.1.1 (List.mem_map.2 ⟨entry, hentry, eq_of_beq hname⟩)
      rw [List.filter_append, List.filter_cons_of_pos (by simp), hbefore, hafter]
      rfl

/-- Where no name is repeated, every field has the value that stands first for its name. -/
theorem fields?_of_nodup {entries : List (String × α)} (h : (entries.map (·.1)).Nodup)
    (names : List String) : fields? names entries = some (names.map (entries.lookup ·)) := by
  refine (congrArg (names.mapM ·) (funext fun name => ?_)).trans List.mapM_pure
  rw [filter_eq_of_nodup h]
  cases entries.lookup name <;> rfl

end Entries

namespace Json

/-! ## Records -/

/-- The two shapes of a record. -/
inductive Shape where
  | byName
  | byPlace

def ofRecord (fields : List (String × Json)) : Shape → Json
  | .byName => .object fields
  | .byPlace => .array (fields.map (·.2))

/-- A record gives every field its value. -/
theorem record?_ofRecord {fields : List (String × Json)} (h : (fields.map (·.1)).Nodup)
    (shape : Shape) :
    (ofRecord fields shape).record? (fields.map (·.1)) = some (fields.map (some ·.2)) := by
  cases shape with
  | byName =>
      rw [ofRecord, record?, fields?_of_nodup h, List.map_map]
      congr 1
      exact List.map_congr_left fun field hfield => lookup_of_mem h hfield
  | byPlace => simp [ofRecord, record?]

theorem exact_ofRecord {fields : List (String × Json)} (h : ∀ field ∈ fields, Exact field.2)
    (shape : Shape) : Exact (ofRecord fields shape) := by
  cases shape with
  | byName => exact .object h
  | byPlace => exact .array (List.forall_mem_map.2 h)

theorem map?_ofMap {α : Type} {read : Json → Option α} {write : α → Json} {map : NameMap α}
    (h : ∀ entry ∈ map.entries, read (write entry.2) = some entry.2) :
    map? read (ofMap write map) = some map := by
  rw [ofMap, map?, mapM_map_eq_some]
  · exact congrArg some (NameMap.ofList_of_perm (.refl _))
  · intro entry hentry
    dsimp only
    rw [h entry hentry]
    rfl

theorem exact_ofMap {α : Type} {write : α → Json} (h : ∀ a, Exact (write a)) (map : NameMap α) :
    Exact (ofMap write map) := by
  apply Exact.object
  rw [List.forall_mem_map]
  exact fun entry _ => h entry.2

/-! ## Nesting -/

mutual

/-- How many arrays and objects lie inside one another in a value. -/
def nesting : Json → Nat
  | .array items => nestingAll items + 1
  | .object fields => nestingFields fields + 1
  | _ => 0

def nestingAll : List Json → Nat
  | [] => 0
  | item :: rest => max item.nesting (nestingAll rest)

def nestingFields : List (String × Json) → Nat
  | [] => 0
  | (_, value) :: rest => max value.nesting (nestingFields rest)

end

theorem nestingFields_eq (fields : List (String × Json)) :
    nestingFields fields = nestingAll (fields.map (·.2)) := by
  induction fields with
  | nil => rfl
  | cons field rest ih => rw [nestingFields, ih, List.map_cons, nestingAll]

/-- Both shapes of a record nest equally deep. -/
theorem nesting_ofRecord (fields : List (String × Json)) (shape : Shape) :
    (ofRecord fields shape).nesting = nestingAll (fields.map (·.2)) + 1 := by
  cases shape with
  | byName => rw [ofRecord, nesting, nestingFields_eq]
  | byPlace => rw [ofRecord, nesting]

theorem nestingAll_eq_zero {items : List Json} (h : ∀ item ∈ items, item.nesting = 0) :
    nestingAll items = 0 := by
  induction items with
  | nil => rfl
  | cons item rest ih =>
      rw [List.forall_mem_cons] at h
      rw [nestingAll, h.1, ih h.2, Nat.max_self]

theorem nesting_ofMap_string (map : NameMap String) : (ofMap .string map).nesting = 1 := by
  rw [ofMap, nesting, nestingFields_eq, nestingAll_eq_zero]
  rw [List.map_map, List.forall_mem_map]
  exact fun _ _ => rfl

/-- A reader with a limit on nesting reads several items back if none of them goes beyond it. -/
theorem mapM_map_eq_ite {α : Type} {read : Json → Option α} {write : α → Json} {items : List α}
    {levels : Nat}
    (h : ∀ a ∈ items, read (write a) = if (write a).nesting ≤ levels then some a else none) :
    (items.map write).mapM read =
      if nestingAll (items.map write) ≤ levels then some items else none := by
  induction items with
  | nil =>
      rw [List.map_nil, nestingAll, if_pos (Nat.zero_le _)]
      rfl
  | cons a rest ih =>
      rw [List.forall_mem_cons] at h
      rw [List.map_cons, List.mapM_cons, h.1, ih h.2, nestingAll]
      by_cases hfirst : (write a).nesting ≤ levels
      · by_cases hrest : nestingAll (rest.map write) ≤ levels
        · rw [if_pos hfirst, if_pos hrest, if_pos (Nat.max_le.2 ⟨hfirst, hrest⟩)]
          rfl
        · rw [if_pos hfirst, if_neg hrest, if_neg fun hmax => hrest (Nat.max_le.1 hmax).2]
          rfl
      · rw [if_neg hfirst, if_neg fun hmax => hfirst (Nat.max_le.1 hmax).1]
        rfl

/-- Both texts of a value are read as a value that `read` takes for `a`. -/
def ReadBack {α : Type} (read : Json → Option α) (json : Json) (a : α) : Prop :=
  ∀ text ∈ [json.compact, json.pretty], (parse text).bind read = some a

theorem readBack_iff {α : Type} {read : Json → Option α} {json : Json} {a : α} (h : Exact json) :
    ReadBack read json a ↔ read json = some a := by
  simp only [ReadBack, List.forall_mem_cons, parse_compact h.readAs, parse_pretty h.readAs,
    Option.bind_some]
  exact ⟨And.left, fun hread => ⟨hread, hread, fun _ hmem => absurd hmem List.not_mem_nil⟩⟩

end Json

open Json

/-! ## Descriptions -/

namespace Spec

mutual

/-- The form of a description with all records in one shape. -/
def form (shape : Shape) : Spec → Json
  | ⟨space, category, kind, attributes, children⟩ => ofRecord [
      ("namespace", .string space),
      ("category", .string category),
      ("kind", .string kind),
      ("attributes", Json.ofMap .string attributes),
      ("children", .array (formAll shape children))] shape

def formAll (shape : Shape) : List Spec → List Json
  | [] => []
  | spec :: rest => form shape spec :: formAll shape rest

end

/-- The form of a description with every record as an array. -/
def toRow (spec : Spec) : Json := spec.form .byPlace

mutual

theorem toJson_eq_form : ∀ spec : Spec, spec.toJson = spec.form .byName
  | ⟨space, category, kind, attributes, children⟩ => by
      rw [toJson, form, toJsonAll_eq_formAll children, ofRecord]

theorem toJsonAll_eq_formAll : ∀ specs : List Spec, toJsonAll specs = formAll .byName specs
  | [] => rfl
  | spec :: rest => by
      rw [toJsonAll, formAll, toJson_eq_form spec, toJsonAll_eq_formAll rest]

end

variable {shape : Shape}

theorem formAll_eq_map (specs : List Spec) : formAll shape specs = specs.map (form shape) := by
  induction specs with
  | nil => rfl
  | cons spec rest ih => rw [formAll, ih, List.map_cons]

theorem exact_form (spec : Spec) : Exact (spec.form shape) := by
  induction spec using child_induction with
  | step spec ih =>
      obtain ⟨space, category, kind, attributes, children⟩ := spec
      rw [form, formAll_eq_map]
      apply exact_ofRecord
      simp only [List.forall_mem_cons]
      exact ⟨.string _, .string _, .string _, exact_ofMap .string _,
        .array (List.forall_mem_map.2 ih), List.forall_mem_nil _⟩

/-- Below a description lie its attributes, and its children one level deeper. -/
theorem nesting_form (spec : Spec) :
    (spec.form shape).nesting = nestingAll (spec.children.map (form shape)) + 2 := by
  obtain ⟨space, category, kind, attributes, children⟩ := spec
  rw [form, nesting_ofRecord, formAll_eq_map]
  simp only [List.map_cons, List.map_nil, nestingAll, nesting, nesting_ofMap_string]
  omega

/-- A description is read back within a limit exactly if its form keeps to the limit. -/
theorem ofJsonWithin?_form (spec : Spec) (levels : Nat) : ofJsonWithin? levels (spec.form shape) =
    if (spec.form shape).nesting ≤ levels then some spec else none := by
  induction spec using child_induction generalizing levels with
  | step spec ih =>
      rw [nesting_form]
      match levels with
      | 0 => rfl
      | 1 => rfl
      | levels + 2 =>
          obtain ⟨space, category, kind, attributes, children⟩ := spec
          have hrecord := @record?_ofRecord [
            ("namespace", .string space),
            ("category", .string category),
            ("kind", .string kind),
            ("attributes", Json.ofMap .string attributes),
            ("children", .array (formAll shape children))] (by simp) shape
          have hattributes : (Json.ofMap .string attributes).map? Json.str? = some attributes :=
            map?_ofMap fun _ _ => rfl
          have hchildren := mapM_map_eq_ite fun child hchild => ih child hchild levels
          simp only [List.map_cons, List.map_nil] at hrecord
          rw [← formAll_eq_map] at hchildren ⊢
          rw [ofJsonWithin?, form, hrecord]
          simp only [Option.bind_eq_bind, Option.bind_some, Json.str?, Json.items?, hattributes]
          rw [hchildren]
          by_cases hlevels : nestingAll (formAll shape children) ≤ levels
          · rw [if_pos hlevels, if_pos (Nat.add_le_add_right hlevels 2)]
            rfl
          · rw [if_neg hlevels, if_neg fun hle => hlevels (Nat.le_of_add_le_add_right hle)]
            rfl

theorem readBack_form_iff (spec : Spec) :
    ReadBack ofJson? (spec.form shape) spec ↔ (spec.form shape).nesting < 128 := by
  rw [readBack_iff (exact_form spec), ofJson?, ofJsonWithin?_form, Option.ite_none_right_eq_some,
    and_iff_left rfl]
  exact Nat.lt_succ_iff.symm

end Spec

/-! ## Settings -/

namespace Config

/-- The settings in their declared order, each under its name. -/
def fields (config : Config) : List (String × Json) := [
  ("qualifier_attribute", .string config.qualifierAttribute),
  ("type_tag_prefix", .string config.tagPrefix),
  ("type_tag_suffix", .string config.tagSuffix),
  ("loop_count_attribute", .string config.countAttribute),
  ("normalize_capability_names", .bool config.normalizeNames),
  ("legacy_type_tags", .bool config.legacyTags)]

def toRow (config : Config) : Json := ofRecord config.fields .byPlace

theorem nodup_fieldNames : fieldNames.Nodup := by
  decide

theorem exact_fields (config : Config) : ∀ field ∈ config.fields, Exact field.2 := by
  simp only [fields, List.forall_mem_cons]
  exact ⟨.string _, .string _, .string _, .string _, .bool _, .bool _, List.forall_mem_nil _⟩

/-- A field is given its value, or it is left out and has its default value. -/
def Gives (field : String × Json) (given : Option Json) : Prop :=
  given = some field.2 ∨ given = none ∧ field ∈ default.fields

theorem given?_eq_some {α : Type} {read : Json → Option α} {write : α → Json} {name : String}
    {usual a : α} {given : Option Json} (h : Gives (name, write a) given)
    (hread : read (write a) = some a) (husual : (name, write a) ∈ default.fields → a = usual) :
    given? read usual given = some a := by
  rcases h with rfl | ⟨rfl, hmem⟩
  · exact hread
  · rw [given?, husual hmem]

/-- Settings are read from a record of their fields, of which those with the default value may be
left out. -/
theorem ofJson?_eq_some {config : Config} {json : Json} {given : List (Option Json)}
    (hrecord : json.record? fieldNames = some given)
    (hgiven : List.Forall₂ Gives config.fields given) : ofJson? json = some config := by
  simp only [fields, List.forall₂_cons_left_iff, List.forall₂_nil_left_iff] at hgiven
  obtain ⟨_, _, hqualifier, ⟨_, _, hprefix, ⟨_, _, hsuffix, ⟨_, _, hcount, ⟨_, _, hnormalize,
    ⟨_, _, hlegacy, rfl, rfl⟩, rfl⟩, rfl⟩, rfl⟩, rfl⟩, rfl⟩ := hgiven
  rw [ofJson?, hrecord, Option.bind_eq_bind, Option.bind_some, ofFields?,
    given?_eq_some hqualifier rfl (by simp [fields]),
    given?_eq_some hprefix rfl (by simp [fields]), given?_eq_some hsuffix rfl (by simp [fields]),
    given?_eq_some hcount rfl (by simp [fields]), given?_eq_some hnormalize rfl (by simp [fields]),
    given?_eq_some hlegacy rfl (by simp [fields])]
  rfl

/-- Settings are read back from an object, from which any fields with the default value have been
removed. -/
theorem readBack_object {config : Config} {removed : List String}
    (h : ∀ field ∈ config.fields, field.1 ∈ removed → field ∈ default.fields) :
    ReadBack ofJson? (.object (config.fields.filter (·.1 ∉ removed))) config := by
  have hexact : Exact (.object (config.fields.filter (·.1 ∉ removed))) :=
    .object fun field hfield => config.exact_fields field (List.mem_of_mem_filter hfield)
  have hnodup : ((config.fields.filter (·.1 ∉ removed)).map (·.1)).Nodup :=
    nodup_fieldNames.sublist (List.filter_sublist.map _)
  have hrecord : record? fieldNames (.object (config.fields.filter (·.1 ∉ removed))) =
      some ((config.fields.map (·.1)).map ((config.fields.filter (·.1 ∉ removed)).lookup ·)) :=
    fields?_of_nodup hnodup fieldNames
  rw [readBack_iff hexact]
  apply ofJson?_eq_some hrecord
  rw [List.map_map, List.forall₂_map_right_iff, List.forall₂_same]
  intro field hfield
  by_cases hremoved : field.1 ∈ removed
  · refine .inr ⟨List.lookup_eq_none_iff.2 fun other hother => ?_, h field hfield hremoved⟩
    have hkept := of_decide_eq_true (List.mem_filter.1 hother).2
    rw [bne_iff_ne]
    exact fun heq => hkept (heq ▸ hremoved)
  · exact .inl (lookup_of_mem hnodup (List.mem_filter.2 ⟨hfield, decide_eq_true hremoved⟩))

/-- Settings are read back from an array, from whose end any values that are the default have been
removed. -/
theorem readBack_array {config : Config} {count : Nat}
    (h : ∀ field ∈ config.fields.drop count, field ∈ default.fields) :
    ReadBack ofJson? (.array ((config.fields.take count).map (·.2))) config := by
  have hexact : Exact (.array ((config.fields.take count).map (·.2))) := by
    apply Exact.array
    rw [List.forall_mem_map]
    exact fun field hfield => config.exact_fields field (List.mem_of_mem_take hfield)
  have hlength : ((config.fields.take count).map (·.2)).length = min count 6 := by
    rw [List.length_map, List.length_take]
    rfl
  have hleft : (config.fields.drop count).map (fun _ => none) =
      List.replicate (6 - min count 6) (none : Option Json) := by
    rw [List.map_const', List.length_drop]
    show List.replicate (6 - count) _ = _
    congr 1
    omega
  have hrecord : record? fieldNames (.array ((config.fields.take count).map (·.2))) =
      some (((config.fields.take count).map (·.2)).map some ++
        (config.fields.drop count).map fun _ => none) := by
    rw [record?, hlength, hleft]
    exact if_pos (Nat.min_le_right ..)
  rw [readBack_iff hexact]
  apply ofJson?_eq_some hrecord
  have hgiven : List.Forall₂ Gives (config.fields.take count ++ config.fields.drop count)
      (((config.fields.take count).map (·.2)).map some ++
        (config.fields.drop count).map fun _ => none) := by
    apply List.rel_append
    · rw [List.map_map, List.forall₂_map_right_iff, List.forall₂_same]
      exact fun _ _ => .inl rfl
    · rw [List.forall₂_map_right_iff, List.forall₂_same]
      exact fun field hfield => .inr ⟨rfl, h field hfield⟩
  rwa [List.take_append_drop] at hgiven

end Config

/-! ## Diagnostics -/

namespace Diagnostic

/-- The fields of a diagnostic in their declared order. -/
def fields (d : Diagnostic) : List (String × Json) := [
  ("tick", .integer d.tick.toNat),
  ("capability", .string d.capability),
  ("message", .string d.message)]

def toRow (d : Diagnostic) : Json := ofRecord d.fields .byPlace

/-- The form of the diagnostics that a sink has kept, with every record as an array. -/
def keptToRow (kept : List Diagnostic) : Json :=
  ofRecord [("diagnostics", .array (kept.map toRow))] .byPlace

theorem tickOfInt?_toNat (tick : UInt64) : tickOfInt? tick.toNat = some tick := by
  have hlt := tick.toNat_lt
  rw [tickOfInt?, if_pos (by omega), Int.toNat_natCast, UInt64.ofNat_toNat]

theorem exact_form (d : Diagnostic) (shape : Shape) : Exact (ofRecord d.fields shape) := by
  have hlt := d.tick.toNat_lt
  apply exact_ofRecord
  simp only [fields, List.forall_mem_cons]
  exact ⟨.integer (by omega) (by omega), .string _, .string _, List.forall_mem_nil _⟩

theorem ofJson?_form (d : Diagnostic) (shape : Shape) :
    ofJson? (ofRecord d.fields shape) = some d := by
  have hrecord := @record?_ofRecord d.fields (by simp [fields]) shape
  simp only [fields, List.map_cons, List.map_nil] at hrecord
  rw [ofJson?, fields, hrecord]
  simp only [Option.bind_eq_bind, Option.bind_some, int?, str?, tickOfInt?_toNat]
  rfl

/-- What a sink has kept is read back from either shape of the record around it. -/
theorem readBack_kept {kept : List Diagnostic} {rows : List Json}
    (hexact : ∀ row ∈ rows, Exact row) (hrows : rows.mapM ofJson? = some kept) (shape : Shape) :
    ReadBack keptOfJson? (ofRecord [("diagnostics", .array rows)] shape) kept := by
  have hrecord := @record?_ofRecord [("diagnostics", .array rows)] (by simp) shape
  simp only [List.map_cons, List.map_nil] at hrecord
  rw [readBack_iff (exact_ofRecord (by simpa using Exact.array hexact) shape), keptOfJson?, hrecord]
  exact hrows

end Diagnostic

/-- Both JSON texts of a description, of settings, of a diagnostic and of what a sink has kept are
read as this value, and so are those of the form in which every record is the array of its values.
A description is read back exactly if its form nests fewer than 128 levels of arrays and objects.
Of settings, fields with the default value may have been removed: any of them from the object, and
those at the end from the array. -/
theorem json_forms_lose_nothing :
    (∀ spec : Spec, ∀ json ∈ [spec.toJson, spec.toRow],
      (ReadBack Spec.ofJson? json spec ↔ json.nesting < 128)) ∧
    (∀ config : Config, ∀ json ∈ [config.toJson, config.toRow],
      ReadBack Config.ofJson? json config) ∧
    (∀ (config : Config) (removed : List String),
      (∀ field ∈ config.fields, field.1 ∈ removed → field ∈ Config.default.fields) →
      ReadBack Config.ofJson? (.object (config.fields.filter (·.1 ∉ removed))) config) ∧
    (∀ (config : Config) (count : Nat),
      (∀ field ∈ config.fields.drop count, field ∈ Config.default.fields) →
      ReadBack Config.ofJson? (.array ((config.fields.take count).map (·.2))) config) ∧
    (∀ d : Diagnostic, ∀ json ∈ [d.toJson, d.toRow], ReadBack Diagnostic.ofJson? json d) ∧
    ∀ kept : List Diagnostic, ∀ json ∈ [Diagnostic.keptToJson kept, Diagnostic.keptToRow kept],
      ReadBack Diagnostic.keptOfJson? json kept := by
  refine ⟨fun spec json hjson => ?_, fun config json hjson => ?_,
    fun _ _ => Config.readBack_object, fun _ _ => Config.readBack_array,
    fun d json hjson => ?_, fun kept json hjson => ?_⟩
  · obtain rfl | rfl : json = spec.toJson ∨ json = spec.toRow := by simpa using hjson
    · rw [spec.toJson_eq_form]
      exact spec.readBack_form_iff
    · exact spec.readBack_form_iff
  · obtain rfl | rfl : json = config.toJson ∨ json = config.toRow := by simpa using hjson
    · exact @Config.readBack_object config [] fun _ _ h => absurd h List.not_mem_nil
    · exact @Config.readBack_array config 6 fun _ h => absurd h List.not_mem_nil
  · obtain rfl | rfl : json = d.toJson ∨ json = d.toRow := by simpa using hjson
    · exact (readBack_iff (d.exact_form .byName)).2 (d.ofJson?_form .byName)
    · exact (readBack_iff (d.exact_form .byPlace)).2 (d.ofJson?_form .byPlace)
  · obtain rfl | rfl : json = Diagnostic.keptToJson kept ∨ json = Diagnostic.keptToRow kept := by
      simpa using hjson
    · exact Diagnostic.readBack_kept (List.forall_mem_map.2 fun d _ => d.exact_form .byName)
        (mapM_map_eq_some fun d _ => d.ofJson?_form .byName) .byName
    · exact Diagnostic.readBack_kept (List.forall_mem_map.2 fun d _ => d.exact_form .byPlace)
        (mapM_map_eq_some fun d _ => d.ofJson?_form .byPlace) .byPlace

/-- Settings of which only the prefix is not the default: the object may hold this field alone, and
the array may end behind it. -/
theorem json_forms_lose_nothing_one_setting :
    (parse "\x7b\"type_tag_prefix\":\"@\"\x7d").bind Config.ofJson? =
      some { tagPrefix := "@" } ∧
    (parse "[\"Class\",\"@\"]").bind Config.ofJson? = some { tagPrefix := "@" } := by
  obtain ⟨-, -, hobject, harray, -⟩ := json_forms_lose_nothing
  constructor
  · apply hobject { tagPrefix := "@" } ["qualifier_attribute", "type_tag_suffix",
      "loop_count_attribute", "normalize_capability_names", "legacy_type_tags"]
    · simp [Config.fields, Config.default]
    · exact List.mem_cons.2 (.inl (by decide))
  · apply harray { tagPrefix := "@" } 2
    · simp [Config.fields, Config.default]
    · exact List.mem_cons.2 (.inl (by decide))

end BehaviorTree
