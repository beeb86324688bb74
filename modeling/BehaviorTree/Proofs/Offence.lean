import BehaviorTree.Proofs.Tagging

/-! # Attributes that offend

An attribute that is not metadata offends if it has no type tag, or an unknown one, or a text that
is not of the declared type, or the keyword of a smaller one. Attributes are taken in the order of
their names, so the error is that of the first one that offends, and nothing that comes after it
matters but the tags of what comes before (`arguments_fail_at_first_offence`). -/

namespace BehaviorTree

section Offence

variable (config : Config) (path : String) (attributes : NameMap String)

/-- Why an attribute cannot be bound after the smaller ones: it has no tag, or an unknown one, or a
text that is not of the declared type, or a name that is that of a smaller one in lower case. -/
inductive Offends (name : String) : CompileError → Prop where
  | untagged (missing : attributes.get? (config.tagPrefix ++ name ++ config.tagSuffix) = none) :
      Offends name (.missingTypeTag name (config.tagPrefix ++ name ++ config.tagSuffix) path)
  | undeclared {tag : String}
      (tagged : attributes.get? (config.tagPrefix ++ name ++ config.tagSuffix) = some tag)
      (unknown : ∀ type, ¬ config.Declares tag type) : Offends name (.unknownType name tag path)
  | misread {text tag : String} {type : ValueType} {misread : Value.Misread}
      (bound : attributes.get? name = some text)
      (tagged : attributes.get? (config.tagPrefix ++ name ++ config.tagSuffix) = some tag)
      (declared : config.Declares tag type) (unread : Value.parse type text = .error misread) :
      Offends name (.invalidAttribute name text (.misread misread) path)
  | taken {text : String} {value : Value} {smaller : String}
      (bound : attributes.get? name = some text) (typed : HasValue config attributes name value)
      (before : smaller < name) (part : TakesPart config attributes smaller)
      (same : Text.lowercase smaller = Text.lowercase name) :
      Offends name (.invalidAttribute name text .keywordTaken path)

/-- The first attribute that offends, with its error. -/
structure FirstOffends (name : String) (e : CompileError) : Prop where
  part : TakesPart config attributes name
  offends : Offends config path attributes name e
  first : ∀ other < name, TakesPart config attributes other → ∀ e,
    ¬ Offends config path attributes other e

end Offence

/-! ## Offences of one attribute -/

section Value

variable {config : Config} {path : String} {attributes : NameMap String} {name text : String}
  {e : CompileError}

/-- An attribute that is not read as a value offends. -/
theorem offends_of_attributeValue (h : attributes.get? name = some text)
    (herror : attributeValue config path attributes name text = .error e) :
    Offends config path attributes name e := by
  obtain htag | ⟨tag, htag, hunknown | ⟨type, hdeclares⟩⟩ := tag_cases config attributes name
  · rw [attributeValue_of_untagged htag] at herror
    cases herror
    exact .untagged htag
  · rw [attributeValue_of_undeclared htag hunknown] at herror
    cases herror
    exact .undeclared htag hunknown
  · rw [attributeValue_of_declared htag hdeclares] at herror
    cases hread : Value.parse type text with
    | error misread =>
        rw [hread] at herror
        cases herror
        exact .misread h htag hdeclares hread
    | ok found =>
        rw [hread] at herror
        cases herror

/-- An attribute that offends has no value, or a smaller one has taken its keyword. -/
theorem Offends.cases_value (h : attributes.get? name = some text)
    (hoffends : Offends config path attributes name e) :
    attributeValue config path attributes name text = .error e ∨
      e = .invalidAttribute name text .keywordTaken path ∧
        (∃ value, attributeValue config path attributes name text = .ok value) ∧
        ∃ smaller < name, TakesPart config attributes smaller ∧
          Text.lowercase smaller = Text.lowercase name := by
  cases hoffends with
  | untagged hmissing => exact .inl (attributeValue_of_untagged hmissing)
  | undeclared htag hunknown => exact .inl (attributeValue_of_undeclared htag hunknown)
  | misread hbound htag hdeclares hread =>
      rw [h, Option.some.injEq] at hbound
      subst hbound
      left
      rw [attributeValue_of_declared htag hdeclares, hread]
      rfl
  | @taken other value smaller hbound htyped hbefore hpart hsame =>
      rw [h, Option.some.injEq] at hbound
      subst hbound
      exact .inr ⟨rfl, ⟨value, (hasValue_iff h).1 htyped⟩, smaller, hbefore, hpart, hsame⟩

/-- An attribute that is bound together with all smaller ones does not offend. -/
theorem not_offends_of_binds {entries : List (String × String)} {bindings : List (String × Value)}
    (h : List.Forall₂ (Binds config path attributes) entries bindings)
    (hnodup : (bindings.map (·.1)).Nodup) (hmem : (name, text) ∈ entries)
    (hbound : attributes.get? name = some text)
    (hsmaller : ∀ smaller < name, TakesPart config attributes smaller →
      ∃ text, (smaller, text) ∈ entries) :
    ¬ Offends config path attributes name e := by
  intro hoffends
  obtain ⟨binding, -, -, hvalue⟩ := exists_of_forall₂_of_mem h hmem
  obtain herror | ⟨-, -, smaller, hbefore, hpart, hsame⟩ := hoffends.cases_value hbound
  · rw [hvalue] at herror
    cases herror
  · obtain ⟨other, hother⟩ := hsmaller smaller hbefore hpart
    have heq := eq_of_lowercase_eq h hnodup hother hmem hsame
    rw [(Prod.mk.inj heq).1] at hbefore
    exact String.lt_irrefl name hbefore

end Value

/-! ## The first failure of a fold -/

section Fold

variable {α β ε : Type} {step : β → α → Except ε β}

/-- A fold fails at one item, after the items before it went well. -/
theorem foldlM_eq_error_iff {items : List α} {start : β} {e : ε} :
    items.foldlM step start = .error e ↔ ∃ before item after reached,
      items = before ++ item :: after ∧ before.foldlM step start = .ok reached ∧
        step reached item = .error e := by
  induction items generalizing start with
  | nil => simp [pure, Except.pure]
  | cons first rest ih =>
      rw [List.foldlM_cons, bind_error_iff]
      constructor
      · rintro (hfirst | ⟨next, hnext, hrest⟩)
        · exact ⟨[], first, rest, start, rfl, rfl, hfirst⟩
        · obtain ⟨before, item, after, reached, rfl, hbefore, hitem⟩ := ih.1 hrest
          refine ⟨first :: before, item, after, reached, rfl, ?_, hitem⟩
          rw [List.foldlM_cons, bind_ok_iff]
          exact ⟨next, hnext, hbefore⟩
      · rintro ⟨before, item, after, reached, hsplit, hbefore, hitem⟩
        cases before with
        | nil =>
            obtain ⟨rfl, rfl⟩ := List.cons.inj hsplit
            cases hbefore
            exact .inl hitem
        | cons _ before =>
            obtain ⟨rfl, rfl⟩ := List.cons.inj hsplit
            rw [List.foldlM_cons, bind_ok_iff] at hbefore
            obtain ⟨next, hnext, hbefore⟩ := hbefore
            exact .inr ⟨next, hnext, ih.2 ⟨before, item, after, reached, rfl, hbefore, hitem⟩⟩

end Fold

/-! ## The first offence -/

section First

variable {config : Config} {path : String} {attributes : NameMap String} {name : String}
  {e : CompileError}

/-- An attribute that cannot be bound after others offends. -/
theorem offends_of_bindAttribute {entries : List (String × String)}
    {bindings : List (String × Value)} {text : String}
    (h : List.Forall₂ (Binds config path attributes) (keywordEntries config entries) bindings)
    (hsmaller : ∀ entry ∈ entries, entry ∈ attributes.entries ∧ entry.1 < name)
    (hbound : attributes.get? name = some text) (hkept : ¬ config.Metadata name)
    (herror : bindAttribute config path attributes (.ofList bindings) (name, text) = .error e) :
    Offends config path attributes name e := by
  rw [bindAttribute_eq, if_neg (by rwa [Config.isMetadata_iff])] at herror
  cases hvalue : attributeValue config path attributes name text with
  | error found =>
      rw [hvalue] at herror
      cases herror
      exact offends_of_attributeValue hbound hvalue
  | ok value =>
      simp only [hvalue] at herror
      split at herror
      · rename_i htaken
        cases herror
        rw [NameMap.contains_ofList_iff, map_keyword_of_binds h] at htaken
        obtain ⟨⟨smaller, other⟩, hentry, hsame⟩ := List.mem_map.1 htaken
        obtain ⟨hentry, hmetadata⟩ := List.mem_filter.1 hentry
        obtain ⟨hmem, hbefore⟩ := hsmaller _ hentry
        have hpart := (mem_keywordEntries_iff.1 (List.mem_filter.2 ⟨hmem, hmetadata⟩)).1
        exact .taken hbound ((hasValue_iff hbound).2 hvalue) hbefore hpart hsame
      · cases herror

/-- An error of the arguments is that of the first attribute that offends. -/
theorem exists_firstOffends_of_arguments (h : arguments config path attributes = .error e) :
    ∃ name, FirstOffends config path attributes name e := by
  obtain ⟨before, ⟨name, text⟩, after, reached, hsplit, hbefore, herror⟩ :=
    foldlM_eq_error_iff.1 h
  obtain ⟨bindings, hbinds, hnodup, -, rfl⟩ := foldlM_bindAttribute_eq_ok_iff.1 hbefore
  have hincreasing := attributes.increasing
  rw [hsplit, List.pairwise_append, List.pairwise_cons] at hincreasing
  obtain ⟨-, ⟨hafter, -⟩, hacross⟩ := hincreasing
  have hsmaller : ∀ entry ∈ before, entry ∈ attributes.entries ∧ entry.1 < name := by
    intro entry hentry
    rw [hsplit]
    exact ⟨List.mem_append_left _ hentry, hacross entry hentry _ List.mem_cons_self⟩
  have hbound : attributes.get? name = some text := by
    rw [← NameMap.mem_entries_iff, hsplit]
    exact List.mem_append_right _ List.mem_cons_self
  have hkept : ¬ config.Metadata name := by
    intro hmetadata
    rw [bindAttribute_of_metadata (Config.isMetadata_iff.2 hmetadata)] at herror
    cases herror
  -- What is smaller than the attribute stands before it.
  have hfound : ∀ other < name, TakesPart config attributes other →
      ∃ text, attributes.get? other = some text ∧ (other, text) ∈ keywordEntries config before := by
    intro other hlt hpart
    obtain ⟨text, htext, hentry⟩ := hpart.exists_entry
    obtain ⟨hmem, hmetadata⟩ := List.mem_filter.1 hentry
    refine ⟨text, htext, List.mem_filter.2 ⟨?_, hmetadata⟩⟩
    rw [hsplit, List.mem_append, List.mem_cons] at hmem
    obtain hmem | heq | hmem := hmem
    · exact hmem
    · rw [(Prod.mk.inj heq).1] at hlt
      exact absurd hlt (String.lt_irrefl _)
    · exact absurd (String.lt_trans hlt (hafter _ hmem)) (String.lt_irrefl _)
  have hpart : TakesPart config attributes name := ⟨by rw [NameMap.contains, hbound]; rfl, hkept⟩
  refine ⟨name, hpart, offends_of_bindAttribute hbinds hsmaller hbound hkept herror, ?_⟩
  intro other hlt hother e
  obtain ⟨text, htext, hentry⟩ := hfound other hlt hother
  refine not_offends_of_binds hbinds hnodup hentry htext fun smaller hbefore hsmaller => ?_
  obtain ⟨text, -, hentry⟩ := hfound smaller (String.lt_trans hbefore hlt) hsmaller
  exact ⟨text, hentry⟩

/-- An attribute has one offence at most. -/
theorem Offends.unique {other : CompileError} (hpart : TakesPart config attributes name)
    (h : Offends config path attributes name e)
    (hother : Offends config path attributes name other) : e = other := by
  obtain ⟨text, htext, -⟩ := hpart.exists_entry
  obtain herror | ⟨rfl, ⟨value, hvalue⟩, -⟩ := h.cases_value htext <;>
    obtain herror' | ⟨rfl, ⟨value', hvalue'⟩, -⟩ := hother.cases_value htext
  · rw [herror, Except.error.injEq] at herror'
    exact herror'
  · rw [herror] at hvalue'
    cases hvalue'
  · rw [hvalue] at herror'
    cases herror'
  · rfl

theorem FirstOffends.unique {name' : String} {e' : CompileError}
    (h : FirstOffends config path attributes name e)
    (h' : FirstOffends config path attributes name' e') : e = e' := by
  by_cases hlt : name < name'
  · exact absurd h.offends (h'.first name hlt h.part e)
  by_cases hgt : name' < name
  · exact absurd h'.offends (h.first name' hgt h'.part e')
  obtain rfl : name = name' := String.le_antisymm (String.not_lt.1 hgt) (String.not_lt.1 hlt)
  exact h.offends.unique h.part h'.offends

/-- Arguments fail with an error exactly if it is that of the first attribute that offends. -/
theorem arguments_eq_error_iff : arguments config path attributes = .error e ↔
    ∃ name, FirstOffends config path attributes name e := by
  constructor
  · exact exists_firstOffends_of_arguments
  · rintro ⟨name, hfirst⟩
    cases hresult : arguments config path attributes with
    | ok kwargs =>
        obtain ⟨bindings, hbinds, hnodup, -⟩ := arguments_eq_ok_iff.1 hresult
        obtain ⟨text, htext, hentry⟩ := hfirst.part.exists_entry
        refine absurd hfirst.offends (not_offends_of_binds hbinds hnodup hentry htext ?_)
        intro smaller _ hsmaller
        obtain ⟨text, -, hentry⟩ := hsmaller.exists_entry
        exact ⟨text, hentry⟩
    | error found =>
        obtain ⟨name', hfound⟩ := exists_firstOffends_of_arguments hresult
        rw [hfound.unique hfirst]

end First

/-! ## What decides an error -/

/-- The attribute that an error names, as it is spelled. -/
def CompileError.attribute? : CompileError → Option String
  | .missingTypeTag name _ _ => some name
  | .unknownType name _ _ => some name
  | .missingAttribute name _ => some name
  | .invalidAttribute name _ _ _ => some name
  | _ => none

/-- Other attributes that are the same up to `name`, and have the same tags for those that are not
metadata up to there. -/
structure AgreesUpTo (config : Config) (name : String) (attributes other : NameMap String) :
    Prop where
  texts : ∀ n ≤ name, other.get? n = attributes.get? n
  tags : ∀ n ≤ name, TakesPart config attributes n →
    other.get? (config.tagPrefix ++ n ++ config.tagSuffix) =
      attributes.get? (config.tagPrefix ++ n ++ config.tagSuffix)

section Agreement

variable {config : Config} {path name n : String} {attributes other : NameMap String}
  {e : CompileError}

theorem AgreesUpTo.takesPart_iff (h : AgreesUpTo config name attributes other) (hn : n ≤ name) :
    TakesPart config other n ↔ TakesPart config attributes n := by
  rw [TakesPart, TakesPart, NameMap.contains, NameMap.contains, h.texts n hn]

theorem AgreesUpTo.symm (h : AgreesUpTo config name attributes other) :
    AgreesUpTo config name other attributes where
  texts n hn := (h.texts n hn).symm
  tags n hn hpart := (h.tags n hn ((h.takesPart_iff hn).1 hpart)).symm

theorem HasValue.of_agrees {value : Value} (h : AgreesUpTo config name attributes other)
    (hn : n ≤ name) (hpart : TakesPart config attributes n)
    (hvalue : HasValue config attributes n value) : HasValue config other n value := by
  obtain ⟨hbound, htag, hdeclares, hread⟩ := hvalue
  exact .intro ((h.texts n hn).trans hbound) ((h.tags n hn hpart).trans htag) hdeclares hread

/-- Whether an attribute offends is a matter of it, of the smaller ones and of their tags. -/
theorem Offends.of_agrees (h : AgreesUpTo config name attributes other) (hn : n ≤ name)
    (hpart : TakesPart config attributes n) (hoffends : Offends config path attributes n e) :
    Offends config path other n e := by
  have htexts := h.texts n hn
  have htags := h.tags n hn hpart
  cases hoffends with
  | untagged hmissing => exact .untagged (htags.trans hmissing)
  | undeclared htag hunknown => exact .undeclared (htags.trans htag) hunknown
  | misread hbound htag hdeclares hread =>
      exact .misread (htexts.trans hbound) (htags.trans htag) hdeclares hread
  | taken hbound htyped hbefore hsmaller hsame =>
      have hle := String.le_trans (String.not_lt.1 (String.lt_asymm hbefore)) hn
      exact .taken (htexts.trans hbound) (htyped.of_agrees h hn hpart) hbefore
        ((h.takesPart_iff hle).2 hsmaller) hsame

theorem FirstOffends.of_agrees (h : AgreesUpTo config name attributes other)
    (hfirst : FirstOffends config path attributes name e) :
    FirstOffends config path other name e where
  part := (h.takesPart_iff (String.le_refl name)).2 hfirst.part
  offends := hfirst.offends.of_agrees h (String.le_refl name) hfirst.part
  first n hlt hpart e hoffends := by
    have hle := String.not_lt.1 (String.lt_asymm hlt)
    exact hfirst.first n hlt ((h.takesPart_iff hle).1 hpart) e (hoffends.of_agrees h.symm hle hpart)

/-- An offence names the attribute and carries the path. -/
theorem Offends.names (h : Offends config path attributes name e) :
    e.attribute? = some name ∧ e.path = path := by
  cases h <;> exact ⟨rfl, rfl⟩

/-- When attributes do not become arguments, the error is that of the first attribute that offends,
in the order of the names as they are spelled; and it is that of no other. The error names this
attribute and carries the path, and it stays when greater attributes change, the tags of this
attribute and of smaller ones apart. -/
theorem arguments_fail_at_first_offence (config : Config) (path : String)
    (attributes : NameMap String) (e : CompileError) :
    (arguments config path attributes = .error e ↔
      ∃ name, FirstOffends config path attributes name e) ∧
      ∀ name, FirstOffends config path attributes name e →
        e.attribute? = some name ∧ e.path = path ∧
          ∀ other, AgreesUpTo config name attributes other →
            arguments config path other = .error e := by
  refine ⟨arguments_eq_error_iff, ?_⟩
  intro name hfirst
  obtain ⟨hname, hpath⟩ := hfirst.offends.names
  refine ⟨hname, hpath, ?_⟩
  intro other hagrees
  exact arguments_eq_error_iff.2 ⟨name, hfirst.of_agrees hagrees⟩

/-- Attributes of which the second has a text that is no integer, and the third, which is greater,
has the keyword of the first. -/
def zoneAmongRanges : NameMap String :=
  .ofList [("Range", "1"), ("_RangeType", "int"), ("Zone", " x "), ("_ZoneType", "int"),
    ("range", "2"), ("_rangeType", "int")]

def zoneError : CompileError :=
  .invalidAttribute "Zone" " x " (.misread ⟨.int, " x ", .integer .invalidDigit⟩) "Wait"

theorem arguments_fail_at_first_offence_misread :
    arguments .default "Wait" zoneAmongRanges = .error zoneError ∧
      arguments .default "Wait" (zoneAmongRanges.insert "zeal" "yes") = .error zoneError := by
  have herror : arguments .default "Wait" zoneAmongRanges = .error zoneError := by decide +kernel
  obtain ⟨hiff, hdecides⟩ :=
    arguments_fail_at_first_offence .default "Wait" zoneAmongRanges zoneError
  obtain ⟨name, hfirst⟩ := hiff.1 herror
  obtain ⟨hname, -, hstays⟩ := hdecides name hfirst
  obtain rfl : "Zone" = name := Option.some.inj hname
  refine ⟨herror, hstays _ ⟨?_, ?_⟩⟩
  · intro n hn
    apply NameMap.get?_insert_of_ne
    rintro rfl
    exact absurd hn (by decide)
  · intro n _ _
    apply NameMap.get?_insert_of_ne
    intro heq
    have hchars := congrArg String.toList heq
    simp [Config.default] at hchars

end Agreement

end BehaviorTree
