import BehaviorTree.Proofs.Binding

/-! # Attributes and their type tags

Every attribute of a leaf that is not metadata has to have a tag that declares a type, and a text of
this type, and its name in lower case has to be its own. When all of them are so, the arguments are
what the tagged attributes say, one for each (`arguments_bind_tagged_attributes`). -/

namespace BehaviorTree

namespace Config

variable {config : Config} {name tag : String} {type : ValueType}

/-- Metadata is the qualifier, and whatever starts with the prefix. -/
def Metadata (config : Config) (name : String) : Prop :=
  name = config.qualifierAttribute ∨ config.tagPrefix.toList <+: name.toList

instance (config : Config) (name : String) : Decidable (config.Metadata name) :=
  inferInstanceAs (Decidable (_ ∨ _))

/-- The types that texts of tags declare. -/
inductive Declares (config : Config) : String → ValueType → Prop where
  | int : Declares config "int" .int
  | float : Declares config "float" .float
  | string : Declares config "string" .str
  | legacy (accepted : config.legacyTags = true) : Declares config "str" .str

theorem isMetadata_iff : config.isMetadata name = true ↔ config.Metadata name := by
  rw [isMetadata, Bool.or_eq_true, beq_iff_eq, List.isPrefixOf_iff_prefix, Metadata]

theorem isMetadata_eq_false_iff : config.isMetadata name = false ↔ ¬ config.Metadata name := by
  rw [← isMetadata_iff, Bool.not_eq_true]

theorem declares_of_ofTag? (h : ValueType.ofTag? tag = some type) : config.Declares tag type := by
  rw [← ValueType.tag_of_ofTag? h]
  cases type with
  | int => exact .int
  | float => exact .float
  | str => exact .string

/-- A tag is resolved to the type that it declares. -/
theorem valueType?_eq_some_iff : config.valueType? tag = some type ↔ config.Declares tag type := by
  constructor
  · intro h
    rw [valueType?] at h
    split at h
    · rename_i hfound
      cases h
      exact declares_of_ofTag? hfound
    · split at h
      · rename_i hlegacy
        obtain ⟨haccepted, rfl⟩ := hlegacy
        cases h
        exact .legacy haccepted
      · cases h
  · intro h
    cases h with
    | int => rfl
    | float => rfl
    | string => rfl
    | legacy haccepted =>
        have hnone : ValueType.ofTag? "str" = none := rfl
        rw [valueType?, hnone]
        dsimp only
        rw [if_pos ⟨haccepted, rfl⟩]

theorem valueType?_eq_none_iff :
    config.valueType? tag = none ↔ ∀ type, ¬ config.Declares tag type := by
  rw [Option.eq_none_iff_forall_ne_some]
  exact forall_congr' fun type => not_congr valueType?_eq_some_iff

end Config

/-! ## Attributes that take part -/

section Tagged

variable (config : Config) (attributes : NameMap String)

/-- An attribute that is there and is not metadata. -/
def TakesPart (name : String) : Prop := attributes.contains name = true ∧ ¬ config.Metadata name

/-- The text of an attribute, read as the type that its own tag declares. -/
inductive HasValue (name : String) : Value → Prop where
  | intro {text tag : String} {type : ValueType} {value : Value}
      (bound : attributes.get? name = some text)
      (tagged : attributes.get? (config.tagPrefix ++ name ++ config.tagSuffix) = some tag)
      (declared : config.Declares tag type) (read : Value.parse type text = .ok value) :
      HasValue name value

end Tagged

section Value

variable {config : Config} {path : String} {attributes : NameMap String} {name text tag : String}
  {type : ValueType}

theorem attributeValue_of_untagged (h : attributes.get? (config.typeTagName name) = none) :
    attributeValue config path attributes name text =
      .error (.missingTypeTag name (config.typeTagName name) path) := by
  rw [attributeValue, h]

theorem attributeValue_of_undeclared (h : attributes.get? (config.typeTagName name) = some tag)
    (hunknown : ∀ type, ¬ config.Declares tag type) :
    attributeValue config path attributes name text = .error (.unknownType name tag path) := by
  rw [attributeValue, h]
  dsimp only
  rw [Config.valueType?_eq_none_iff.2 hunknown]

theorem attributeValue_of_declared (h : attributes.get? (config.typeTagName name) = some tag)
    (hdeclares : config.Declares tag type) :
    attributeValue config path attributes name text =
      (Value.parse type text).mapError fun misread =>
        .invalidAttribute name text (.misread misread) path := by
  rw [attributeValue, h]
  dsimp only
  rw [Config.valueType?_eq_some_iff.2 hdeclares]
  dsimp only
  split <;> rename_i hread <;> rw [hread] <;> rfl

/-- An attribute has no tag, an unknown one, or one that declares a type. -/
theorem tag_cases (config : Config) (attributes : NameMap String) (name : String) :
    attributes.get? (config.typeTagName name) = none ∨
      ∃ tag, attributes.get? (config.typeTagName name) = some tag ∧
        ((∀ type, ¬ config.Declares tag type) ∨ ∃ type, config.Declares tag type) := by
  cases h : attributes.get? (config.typeTagName name) with
  | none => exact .inl rfl
  | some tag =>
      refine .inr ⟨tag, rfl, ?_⟩
      rw [← not_exists]
      exact (Classical.em _).symm

/-- An attribute has its value when it is read as one. -/
theorem hasValue_iff {value : Value} (h : attributes.get? name = some text) :
    HasValue config attributes name value ↔
      attributeValue config path attributes name text = .ok value := by
  constructor
  · rintro ⟨hbound, htag, hdeclares, hread⟩
    rw [h, Option.some.injEq] at hbound
    subst hbound
    rw [attributeValue_of_declared htag hdeclares, hread]
    rfl
  · intro hvalue
    obtain htag | ⟨tag, htag, hunknown | ⟨type, hdeclares⟩⟩ := tag_cases config attributes name
    · rw [attributeValue_of_untagged htag] at hvalue
      cases hvalue
    · rw [attributeValue_of_undeclared htag hunknown] at hvalue
      cases hvalue
    · rw [attributeValue_of_declared htag hdeclares] at hvalue
      cases hread : Value.parse type text with
      | error misread =>
          rw [hread] at hvalue
          cases hvalue
      | ok found =>
          rw [hread] at hvalue
          cases hvalue
          exact .intro h htag hdeclares hread

end Value

/-! ## Bindings of some attributes -/

section Bindings

variable {config : Config} {path : String} {attributes : NameMap String}

/-- The attributes that take part are those that are bound to keywords. -/
theorem mem_keywordEntries_iff {name text : String} :
    (name, text) ∈ keywordEntries config attributes.entries ↔
      TakesPart config attributes name ∧ attributes.get? name = some text := by
  rw [keywordEntries, List.mem_filter, NameMap.mem_entries_iff, TakesPart, NameMap.contains,
    Bool.not_eq_true', Config.isMetadata_eq_false_iff]
  constructor
  · rintro ⟨htext, hkept⟩
    exact ⟨⟨by rw [htext]; rfl, hkept⟩, htext⟩
  · rintro ⟨⟨-, hkept⟩, htext⟩
    exact ⟨htext, hkept⟩

theorem TakesPart.exists_entry {name : String} (h : TakesPart config attributes name) :
    ∃ text, attributes.get? name = some text ∧
      (name, text) ∈ keywordEntries config attributes.entries := by
  obtain ⟨text, htext⟩ := Option.isSome_iff_exists.1 h.1
  exact ⟨text, htext, mem_keywordEntries_iff.2 ⟨h, htext⟩⟩

variable {entries : List (String × String)} {bindings : List (String × Value)}

/-- Two attributes that are both bound do not share a keyword. -/
theorem eq_of_lowercase_eq (h : List.Forall₂ (Binds config path attributes) entries bindings)
    (hnodup : (bindings.map (·.1)).Nodup) {a b : String × String} (ha : a ∈ entries)
    (hb : b ∈ entries) (heq : Text.lowercase a.1 = Text.lowercase b.1) : a = b := by
  rw [map_keyword_of_binds h] at hnodup
  exact List.inj_on_of_nodup_map hnodup ha hb heq

end Bindings

/-! ## Arguments of all attributes -/

section Arguments

variable {config : Config} {path : String} {attributes : NameMap String}

/-- All attributes are bound when each has a value and no two share a keyword. -/
theorem exists_arguments_iff : (∃ kwargs, arguments config path attributes = .ok kwargs) ↔
    (∀ name, TakesPart config attributes name → ∃ value, HasValue config attributes name value) ∧
      ∀ a b, TakesPart config attributes a → TakesPart config attributes b →
        Text.lowercase a = Text.lowercase b → a = b := by
  simp only [arguments_eq_ok_iff]
  constructor
  · rintro ⟨kwargs, bindings, hbinds, hnodup, -⟩
    constructor
    · intro name hpart
      obtain ⟨text, htext, hentry⟩ := hpart.exists_entry
      obtain ⟨binding, -, -, hvalue⟩ := exists_of_forall₂_of_mem hbinds hentry
      exact ⟨binding.2, (hasValue_iff htext).2 hvalue⟩
    · intro a b ha hb hsame
      obtain ⟨_, -, ha⟩ := ha.exists_entry
      obtain ⟨_, -, hb⟩ := hb.exists_entry
      exact (Prod.mk.inj (eq_of_lowercase_eq hbinds hnodup ha hb hsame)).1
  · rintro ⟨hvalues, happart⟩
    have hbound : ∀ entry ∈ keywordEntries config attributes.entries,
        ∃ binding, Binds config path attributes entry binding := by
      rintro ⟨name, text⟩ hentry
      obtain ⟨hpart, htext⟩ := mem_keywordEntries_iff.1 hentry
      obtain ⟨value, hvalue⟩ := hvalues name hpart
      exact ⟨(Text.lowercase name, value), rfl, (hasValue_iff htext).1 hvalue⟩
    obtain ⟨bindings, hbinds⟩ := exists_forall₂ hbound
    refine ⟨_, bindings, hbinds, ?_, rfl⟩
    rw [map_keyword_of_binds hbinds]
    apply List.Nodup.map_on _ ((NameMap.nodup_entries _).filter _)
    rintro ⟨a, text⟩ ha ⟨b, other⟩ hb hsame
    obtain ⟨ha, htext⟩ := mem_keywordEntries_iff.1 ha
    obtain ⟨hb, hother⟩ := mem_keywordEntries_iff.1 hb
    obtain rfl := happart a b ha hb hsame
    rw [htext, Option.some.injEq] at hother
    rw [hother]

/-- The arguments bind the keyword of every attribute that takes part to its value. -/
theorem get?_arguments_iff {kwargs : Kwargs} (h : arguments config path attributes = .ok kwargs)
    {keyword : String} {value : Value} : kwargs.get? keyword = some value ↔
      ∃ name, TakesPart config attributes name ∧ Text.lowercase name = keyword ∧
        HasValue config attributes name value := by
  obtain ⟨bindings, hbinds, hnodup, rfl⟩ := arguments_eq_ok_iff.1 h
  rw [NameMap.get?_ofList_eq_some_iff (NameMap.consistent_of_nodup hnodup)]
  constructor
  · intro hbinding
    obtain ⟨⟨name, text⟩, hentry, hkeyword, hvalue⟩ :=
      exists_of_forall₂_of_mem hbinds.flip hbinding
    obtain ⟨hpart, htext⟩ := mem_keywordEntries_iff.1 hentry
    exact ⟨name, hpart, hkeyword.symm, (hasValue_iff htext).2 hvalue⟩
  · rintro ⟨name, hpart, rfl, hvalue⟩
    obtain ⟨text, htext, hentry⟩ := hpart.exists_entry
    obtain ⟨⟨keyword, found⟩, hbinding, hkeyword, hfound⟩ :=
      exists_of_forall₂_of_mem hbinds hentry
    rw [(hasValue_iff htext).1 hvalue, Except.ok.injEq] at hfound
    obtain rfl : keyword = Text.lowercase name := hkeyword
    rwa [hfound]

/-- There are as many arguments as attributes that are not metadata. -/
theorem size_arguments {kwargs : Kwargs} (h : arguments config path attributes = .ok kwargs) :
    kwargs.size = (attributes.names.filter fun name => ¬ config.Metadata name).length := by
  obtain ⟨bindings, hbinds, hnodup, rfl⟩ := arguments_eq_ok_iff.1 h
  have hkept : (keywordEntries config attributes.entries).map (·.1) =
      attributes.names.filter fun name => ¬ config.Metadata name := by
    rw [NameMap.names, List.filter_map, keywordEntries]
    congr 1
    apply List.filter_congr
    intro entry _
    rw [Bool.eq_iff_iff, Bool.not_eq_true', Config.isMetadata_eq_false_iff]
    exact (decide_eq_true_iff).symm
  calc (NameMap.ofList bindings).size
      = bindings.length := (NameMap.perm_entries_ofList hnodup).length_eq
    _ = (keywordEntries config attributes.entries).length := hbinds.length_eq.symm
    _ = _ := by rw [← hkept, List.length_map]

/-- Attributes become arguments exactly when every one that is not metadata has a tag that declares
a type, and a text of this type, and no two of them have the same name in lower case. The arguments
are then exactly their names in lower case, bound to their values; there is one for each of them,
and none for metadata. -/
theorem arguments_bind_tagged_attributes (config : Config) (path : String)
    (attributes : NameMap String) :
    ((∃ kwargs, arguments config path attributes = .ok kwargs) ↔
      (∀ name, TakesPart config attributes name → ∃ value, HasValue config attributes name value) ∧
        ∀ a b, TakesPart config attributes a → TakesPart config attributes b →
          Text.lowercase a = Text.lowercase b → a = b) ∧
      ∀ kwargs, arguments config path attributes = .ok kwargs →
        (∀ keyword value, kwargs.get? keyword = some value ↔
          ∃ name, TakesPart config attributes name ∧ Text.lowercase name = keyword ∧
            HasValue config attributes name value) ∧
        kwargs.size = (attributes.names.filter fun name => ¬ config.Metadata name).length := by
  refine ⟨exists_arguments_iff, ?_⟩
  intro kwargs h
  exact ⟨fun keyword value => get?_arguments_iff h, size_arguments h⟩

/-- Attributes of two types; the name of one is not in lower case. -/
def rangeAndLabel : NameMap String :=
  .ofList [("RANGE", " 5 "), ("_RANGEType", "int"), ("label", "5"), ("_labelType", "string"),
    ("Class", "BT.Actions.Scan")]

theorem arguments_bind_tagged_attributes_two_types : ∃ kwargs,
    arguments .default "Scan" rangeAndLabel = .ok kwargs ∧
      kwargs.get? "range" = some (.int 5) ∧ kwargs.get? "label" = some (.str "5") ∧
      kwargs.size = 2 := by
  have h : arguments .default "Scan" rangeAndLabel =
      .ok (.ofList [("label", .str "5"), ("range", .int 5)]) := by
    decide +kernel
  obtain ⟨hkeywords, hsize⟩ :=
    (arguments_bind_tagged_attributes .default "Scan" rangeAndLabel).2 _ h
  refine ⟨_, h, ?_, ?_, hsize.trans (by decide +kernel)⟩
  · exact (hkeywords "range" (.int 5)).2 ⟨"RANGE", ⟨by decide +kernel, by decide +kernel⟩,
      by decide +kernel,
      .intro (show _ = some " 5 " by decide +kernel) (by decide +kernel) .int (by decide +kernel)⟩
  · exact (hkeywords "label" (.str "5")).2 ⟨"label", ⟨by decide +kernel, by decide +kernel⟩,
      by decide +kernel,
      .intro (show _ = some "5" by decide +kernel) (by decide +kernel) .string (by decide +kernel)⟩

end Arguments

end BehaviorTree
