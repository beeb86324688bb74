import BehaviorTree.Proofs.Relevance

/-! # What the switches of the settings change

Two settings are switches. To accept the older tag for texts is to read a description as if it had
the newer one in its place (`Spec.modernised`), and makes no difference where a description compiles
without it. To lower-case names is to lower-case the names in the compiled tree, and nothing else.
-/

namespace BehaviorTree

namespace NameMap

variable {α : Type}

/-- The map with its values changed, each in a way that depends on its name. -/
def mapValues (f : String → α → α) (map : NameMap α) : NameMap α :=
  ⟨map.entries.map fun entry => (entry.1, f entry.1 entry.2),
    List.pairwise_map.2 map.increasing⟩

theorem get?_mapValues (f : String → α → α) (map : NameMap α) (name : String) :
    (map.mapValues f).get? name = (map.get? name).map (f name) := by
  apply Option.ext
  intro value
  rw [← mem_entries_iff, mapValues, List.mem_map, Option.map_eq_some_iff]
  constructor
  · rintro ⟨⟨key, stored⟩, hmem, heq⟩
    obtain ⟨rfl, rfl⟩ := Prod.mk.inj heq
    exact ⟨stored, (mem_entries_iff map key stored).1 hmem, rfl⟩
  · rintro ⟨stored, hstored, rfl⟩
    exact ⟨(name, stored), (mem_entries_iff map name stored).2 hstored, rfl⟩

end NameMap

/-! ## The older tag for texts -/

/-- The tag that takes the place of a tag: the newer one for that of texts. -/
def modernTag (tag : String) : String := if tag = "str" then "string" else tag

namespace Config

/-- The settings with the older tag for texts accepted, or not. -/
def withLegacyTags (config : Config) (accepted : Bool) : Config :=
  { config with legacyTags := accepted }

/-- The settings with names lower-cased, or taken as they are. -/
def withNormalizedNames (config : Config) (normalized : Bool) : Config :=
  { config with normalizeNames := normalized }

theorem typeTagName_eq (config : Config) (name : String) :
    config.typeTagName name = config.tagPrefix ++ name ++ config.tagSuffix := rfl

/-- The older tag declares what the newer one does, and the other tags what they always do. -/
theorem valueType?_withLegacyTags (config : Config) (tag : String) :
    (config.withLegacyTags true).valueType? tag =
      (config.withLegacyTags false).valueType? (modernTag tag) := by
  by_cases htag : tag = "str"
  · subst htag
    rfl
  · rw [modernTag, if_neg htag, valueType?, valueType?]
    cases ValueType.ofTag? tag with
    | some type => rfl
    | none => simp [htag]

/-- A tag that declares a type without the older tag is not the older one. -/
theorem modernTag_of_declares {config : Config} {tag : String} {type : ValueType}
    (h : (config.withLegacyTags false).Declares tag type) : modernTag tag = tag := by
  cases h with
  | int => rfl
  | float => rfl
  | string => rfl
  | legacy haccepted => cases haccepted

end Config

/-! ## Leaves with the newer tag -/

section Tags

variable (config : Config) (attributes : NameMap String)

/-- A name is that of the type tag of an attribute that takes part. -/
def TagsKeyword (name : String) : Prop :=
  ∃ keyword ∈ attributes.names,
    ¬ config.Metadata keyword ∧ name = config.tagPrefix ++ keyword ++ config.tagSuffix

instance (name : String) : Decidable (TagsKeyword config attributes name) :=
  inferInstanceAs (Decidable (∃ keyword ∈ attributes.names, _))

/-- The attributes with the newer tag for texts in the place of the older one. Only the type tags of
attributes that are not metadata are changed. -/
def modernTags : NameMap String :=
  attributes.mapValues fun name text =>
    if TagsKeyword config attributes name then modernTag text else text

end Tags

section Modern

variable {config : Config} {attributes : NameMap String} {name path : String}

theorem tagsKeyword_iff : TagsKeyword config attributes name ↔
    ∃ keyword, TakesPart config attributes keyword ∧ name = config.typeTagName keyword := by
  simp only [TagsKeyword, TakesPart, NameMap.mem_names_iff, and_assoc, Config.typeTagName_eq]

theorem metadata_of_tagsKeyword (h : TagsKeyword config attributes name) :
    config.Metadata name := by
  obtain ⟨keyword, -, rfl⟩ := tagsKeyword_iff.1 h
  exact Config.isMetadata_iff.1 (config.isMetadata_typeTagName keyword)

theorem get?_modernTags_of_not (h : ¬ TagsKeyword config attributes name) :
    (modernTags config attributes).get? name = attributes.get? name := by
  rw [modernTags, NameMap.get?_mapValues]
  simp only [if_neg h, Option.map_id']

theorem get?_modernTags_of_takesPart (h : TakesPart config attributes name) :
    (modernTags config attributes).get? (config.typeTagName name) =
      (attributes.get? (config.typeTagName name)).map modernTag := by
  rw [modernTags, NameMap.get?_mapValues]
  simp only [if_pos (tagsKeyword_iff.2 ⟨name, h, rfl⟩)]

/-- An attribute is read with the older tag as it is with the newer one in its place. -/
theorem attributeValue_modernTags (h : TakesPart config attributes name) (text : String) :
    attributeValue (config.withLegacyTags false) path (modernTags config attributes) name text =
      attributeValue (config.withLegacyTags true) path attributes name text := by
  have hname : ∀ accepted, (config.withLegacyTags accepted).typeTagName name =
      config.typeTagName name := fun _ => rfl
  rw [attributeValue, attributeValue, hname, hname, get?_modernTags_of_takesPart h]
  cases attributes.get? (config.typeTagName name) with
  | none => rfl
  | some tag =>
      dsimp only [Option.map_some]
      rw [← config.valueType?_withLegacyTags tag]
      cases htype : (config.withLegacyTags true).valueType? tag with
      | some type => rfl
      | none =>
          -- The error tells the tag, and a tag that is unknown with the switch on is not changed.
          have htag : tag ≠ "str" := by
            rintro rfl
            cases htype
          rw [modernTag, if_neg htag]

theorem arguments_modernTags (config : Config) (path : String) (attributes : NameMap String) :
    arguments (config.withLegacyTags false) path (modernTags config attributes) =
      arguments (config.withLegacyTags true) path attributes := by
  refine arguments_congr (fun _ => rfl) ?_ ?_
  · intro name hkept
    exact get?_modernTags_of_not fun htag => hkept (metadata_of_tagsKeyword htag)
  · intro name text hpart
    exact attributeValue_modernTags hpart text

/-- Attributes that become arguments without the older tag do not have it. -/
theorem modernTags_eq_self
    (h : ∃ kwargs, arguments (config.withLegacyTags false) path attributes = .ok kwargs) :
    modernTags config attributes = attributes := by
  apply NameMap.ext_get?
  intro name
  by_cases htags : TagsKeyword config attributes name
  · obtain ⟨keyword, hpart, rfl⟩ := tagsKeyword_iff.1 htags
    obtain ⟨value, hvalue⟩ := (exists_arguments_iff.1 h).1 keyword hpart
    obtain ⟨-, htag, hdeclares, -⟩ := hvalue
    have hfound : attributes.get? (config.typeTagName keyword) = some _ := htag
    rw [get?_modernTags_of_takesPart hpart, hfound, Option.map_some,
      Config.modernTag_of_declares hdeclares]
  · exact get?_modernTags_of_not htags

end Modern

/-! ## Descriptions with the newer tag -/

theorem Site.Valid.exists_arguments {config : Config} {site : Site} (h : site.Valid config)
    (hleaf : site.category = "Conditions" ∨ site.category = "Actions") :
    ∃ kwargs, arguments config site.path site.attributes = .ok kwargs := by
  cases h with
  | composite category => simp [category] at hleaf
  | loop category => simp [category] at hleaf
  | leaf category arity kwargs => exact kwargs

namespace Spec

mutual

/-- The description with the newer tag for texts in the place of the older one at every leaf. -/
def modernised (config : Config) : Spec → Spec
  | ⟨space, category, kind, attributes, children⟩ =>
      ⟨space, category, kind,
        if category = "Conditions" ∨ category = "Actions" then modernTags config attributes
        else attributes,
        modernisedAll config children⟩

/-- Several descriptions with the newer tag for texts at every leaf. -/
def modernisedAll (config : Config) : List Spec → List Spec
  | [] => []
  | spec :: rest => spec.modernised config :: modernisedAll config rest

end

theorem modernisedAll_eq_map (config : Config) (specs : List Spec) :
    modernisedAll config specs = specs.map (modernised config) := by
  induction specs with
  | nil => rfl
  | cons spec rest ih => rw [modernisedAll, ih, List.map_cons]

section Modernised

variable (config : Config) (spec : Spec)

theorem category_modernised : (spec.modernised config).category = spec.category := by
  cases spec
  rfl

theorem kind_modernised : (spec.modernised config).kind = spec.kind := by
  cases spec
  rfl

theorem children_modernised :
    (spec.modernised config).children = spec.children.map (modernised config) := by
  cases spec
  exact modernisedAll_eq_map config _

variable {config spec}

theorem attributes_modernised_of_leaf
    (h : spec.category = "Conditions" ∨ spec.category = "Actions") :
    (spec.modernised config).attributes = modernTags config spec.attributes := by
  cases spec
  exact if_pos h

theorem attributes_modernised_of_not_leaf
    (h : ¬ (spec.category = "Conditions" ∨ spec.category = "Actions")) :
    (spec.modernised config).attributes = spec.attributes := by
  cases spec
  exact if_neg h

/-- A node with the older tag accepted is read as its newer form is without it. -/
theorem matches_modernised (config : Config) (spec : Spec) :
    Matches (config.withLegacyTags true) (config.withLegacyTags false) id spec
      (spec.modernised config) := by
  refine ⟨category_modernised config spec, kind_modernised config spec, ?_, ?_, rfl⟩
  · intro hcategory _ path
    have hinner : ¬ (spec.category = "Conditions" ∨ spec.category = "Actions") := by
      simp [hcategory]
    have hname : (config.withLegacyTags false).countAttribute =
        (config.withLegacyTags true).countAttribute := rfl
    exact loopCount_congr hname (by rw [attributes_modernised_of_not_leaf hinner]) path
  · intro hleaf path
    rw [attributes_modernised_of_leaf hleaf]
    exact arguments_modernTags config path spec.attributes

/-- To accept the older tag is to compile the newer form without it. -/
theorem compilation_modernised (config : Config) (spec : Spec) :
    (spec.modernised config).compilation (config.withLegacyTags false) =
      spec.compilation (config.withLegacyTags true) := by
  refine compilation_eq_of_matches (fun older newer => newer = older.modernised config) ?_ ?_ rfl
  · rintro older _ rfl
    exact matches_modernised config older
  · rintro older _ rfl
    rw [children_modernised, List.forall₂_map_right_iff]
    exact List.forall₂_same.2 fun _ _ => rfl

/-- A description whose nodes are all valid without the older tag is its own newer form. -/
theorem modernised_eq_self {path : String}
    (h : ∀ site ∈ spec.sites path, site.Valid (config.withLegacyTags false)) :
    spec.modernised config = spec := by
  induction spec using child_induction generalizing path with
  | step spec ih =>
      rw [sites_eq, List.forall_mem_cons] at h
      obtain ⟨hvalid, hbelow⟩ := h
      have hchildren : (spec.modernised config).children = spec.children := by
        rw [children_modernised]
        refine (List.map_congr_left fun child hchild => ?_).trans (List.map_id spec.children)
        obtain ⟨i, hi⟩ := List.getElem?_of_mem hchild
        exact ih child hchild fun site hsite =>
          hbelow site (mem_sitesFrom_iff.2 ⟨i, child, hi, hsite⟩)
      have hattributes : (spec.modernised config).attributes = spec.attributes := by
        by_cases hleaf : spec.category = "Conditions" ∨ spec.category = "Actions"
        · rw [attributes_modernised_of_leaf hleaf]
          exact modernTags_eq_self (hvalid.exists_arguments hleaf)
        · exact attributes_modernised_of_not_leaf hleaf
      cases spec
      exact congrArg₂ (Spec.mk _ _ _) hattributes hchildren

end Modernised

/-! ## Names in lower case -/

/-- A node is read the same whether names are lower-cased or not, its capability's name apart. -/
theorem matches_withNormalizedNames (config : Config) (spec : Spec) :
    Matches (config.withNormalizedNames false) (config.withNormalizedNames true) Text.lowercase spec
      spec := by
  have hname : (config.withNormalizedNames true).countAttribute =
      (config.withNormalizedNames false).countAttribute := rfl
  refine ⟨rfl, rfl, fun _ _ path => loopCount_congr hname rfl path, fun _ path => ?_, rfl⟩
  exact arguments_congr (fun _ => rfl) (fun _ _ => rfl) fun _ _ _ => rfl

theorem compilation_withNormalizedNames (config : Config) (spec : Spec) :
    spec.compilation (config.withNormalizedNames true) =
      (spec.compilation (config.withNormalizedNames false)).map (Node.renamed Text.lowercase) := by
  refine compilation_eq_map Eq ?_ ?_ rfl
  · rintro spec _ rfl
    exact matches_withNormalizedNames config spec
  · rintro spec _ rfl
    exact List.forall₂_same.2 fun _ _ => rfl

/-- With the older tag for texts accepted, the same comes of a compilation, a tree or an error, as
without it of the description that has the newer tag in its place; so what compiles without it
compiles to the same tree with it. With names lower-cased, the same error comes of a compilation as
with names taken as they are, or the same tree with the names of its capabilities lower-cased. -/
theorem switches_change_what_they_name (config : Config) (spec : Spec) :
    (spec.compile (config.withLegacyTags true) =
        (spec.modernised config).compile (config.withLegacyTags false) ∧
      ∀ root, spec.compile (config.withLegacyTags false) = .ok root →
        spec.compile (config.withLegacyTags true) = .ok root) ∧
    spec.compile (config.withNormalizedNames true) =
      (spec.compile (config.withNormalizedNames false)).map (Node.renamed Text.lowercase) := by
  have hlegacy : spec.compile (config.withLegacyTags true) =
      (spec.modernised config).compile (config.withLegacyTags false) :=
    congrArg Compilation.result (compilation_modernised config spec).symm
  refine ⟨⟨hlegacy, ?_⟩, congrArg Compilation.result (compilation_withNormalizedNames config spec)⟩
  intro root hroot
  rw [hlegacy, modernised_eq_self (exists_compile_eq_ok_iff.1 ⟨root, hroot⟩), hroot]

/-- An action without children compiles to what its attributes bind. -/
theorem compile_of_action {config : Config} {spec : Spec} {kwargs : Kwargs}
    (hcategory : spec.category = "Actions") (hchildren : spec.children = [])
    (hkwargs : arguments config spec.kind spec.attributes = .ok kwargs) :
    spec.compile config =
      .ok (.leaf .action ⟨config.capabilityName spec.kind, kwargs, spec.kind⟩) := by
  have hsegment : Category.ofSegment? spec.category = some .action :=
    Category.ofSegment?_eq_some_iff.2 hcategory
  have hplan : spec.plan config spec.kind =
      .ok (.leaf .action ⟨config.capabilityName spec.kind, kwargs, spec.kind⟩) := by
    rw [plan, hsegment]
    dsimp only
    rw [planLeaf, checkArity, hchildren, hkwargs]
    rfl
  rw [compile, compilation, compileAt_result, hplan, hchildren]
  rfl

def sayTagged (tag : String) : Spec := (action "Say").withTypedAttribute "Text" "5" tag

/-- A text under the older tag is read with the switch as it is under the newer tag, which needs
none. The name of the capability is lower-cased with the other switch. -/
theorem switches_change_what_they_name_say :
    let accepted := Config.withLegacyTags .default true
    let kept := Config.withNormalizedNames .default false
    let lowered := Config.withNormalizedNames .default true
    let bound name := Node.leaf .action ⟨name, .ofList [("text", .str "5")], "Say"⟩
    (sayTagged "str").compile accepted = .ok (bound "say") ∧
      (sayTagged "string").compile accepted = .ok (bound "say") ∧
      (sayTagged "string").compile kept = .ok (bound "Say") ∧
      (sayTagged "string").compile lowered = .ok (bound "say") := by
  intro accepted kept lowered bound
  have hlowercase : Text.lowercase "Say" = "say" := by
    decide +kernel
  have hnewer : (sayTagged "string").compile (Config.withLegacyTags .default false) =
      .ok (bound "say") := by
    have hkwargs : arguments (Config.withLegacyTags .default false) "Say"
        (sayTagged "string").attributes = .ok (.ofList [("text", .str "5")]) := by
      decide +kernel
    rw [compile_of_action rfl rfl hkwargs]
    exact congrArg (fun name => Except.ok (bound name)) hlowercase
  have hkept : (sayTagged "string").compile kept = .ok (bound "Say") :=
    compile_of_action rfl rfl (by decide +kernel)
  have hmodernised : (sayTagged "str").modernised .default = sayTagged "string" := by
    have hattributes : modernTags .default (sayTagged "str").attributes =
        (sayTagged "string").attributes := by decide +kernel
    exact congrArg (Spec.mk "BT" "Actions" "Say" · []) hattributes
  obtain ⟨⟨holder, -⟩, -⟩ := switches_change_what_they_name .default (sayTagged "str")
  obtain ⟨⟨-, hsame⟩, hnames⟩ := switches_change_what_they_name .default (sayTagged "string")
  refine ⟨?_, hsame _ hnewer, hkept, ?_⟩
  · rw [holder, hmodernised, hnewer]
  · rw [hnames, hkept]
    exact congrArg (fun name => Except.ok (bound name)) hlowercase

end Spec

end BehaviorTree
