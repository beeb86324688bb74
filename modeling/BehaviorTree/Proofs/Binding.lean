import BehaviorTree.Arguments
import BehaviorTree.Proofs.Names
import BehaviorTree.Proofs.Reading

/-! # Arguments as bindings

The attributes of a leaf are bound one after the other, and the first that cannot be bound ends it.
When none does, every attribute that is not metadata has brought one binding: of its name in lower
case to its text, read under its tag. No keyword is bound twice, so the order has no bearing on the
arguments. -/

namespace BehaviorTree

/-! ## Names of type tags -/

namespace Config

/-- A type tag is metadata. -/
theorem isMetadata_typeTagName (config : Config) (name : String) :
    config.isMetadata (config.typeTagName name) = true := by
  rw [isMetadata, typeTagName, String.toList_append, String.toList_append, List.append_assoc,
    Bool.or_eq_true, List.isPrefixOf_iff_prefix]
  exact .inr (List.prefix_append _ _)

/-- Different attributes have different type tags. -/
theorem typeTagName_injective (config : Config) {name other : String}
    (h : config.typeTagName name = config.typeTagName other) : name = other := by
  have hchars := congrArg String.toList h
  simp only [typeTagName, String.toList_append] at hchars
  exact String.toList_inj.1 (List.append_cancel_left (List.append_cancel_right hchars))

end Config

/-! ## Bindings -/

variable {config : Config} {path : String} {attributes : NameMap String}

/-- An attribute with this name and text binds its name in lower case to its value. -/
def Binds (config : Config) (path : String) (attributes : NameMap String) (entry : String × String)
    (binding : String × Value) : Prop :=
  binding.1 = Text.lowercase entry.1 ∧
    attributeValue config path attributes entry.1 entry.2 = .ok binding.2

theorem map_keyword_of_binds {entries : List (String × String)} {bindings : List (String × Value)}
    (h : List.Forall₂ (Binds config path attributes) entries bindings) :
    bindings.map (·.1) = entries.map fun entry => Text.lowercase entry.1 := by
  induction h with
  | nil => rfl
  | cons hfirst _ ih => rw [List.map_cons, List.map_cons, hfirst.1, ih]

/-- The attributes that become arguments. -/
def keywordEntries (config : Config) (entries : List (String × String)) : List (String × String) :=
  entries.filter fun entry => !config.isMetadata entry.1

theorem bindAttribute_of_metadata {kwargs : Kwargs} {name text : String}
    (h : config.isMetadata name = true) :
    bindAttribute config path attributes kwargs (name, text) = .ok kwargs := by
  rw [bindAttribute_eq, if_pos h]

/-- An attribute that is not metadata is bound if it has a value and its keyword is free. -/
theorem bindAttribute_eq_ok_iff {kwargs bound : Kwargs} {name text : String}
    (h : config.isMetadata name = false) :
    bindAttribute config path attributes kwargs (name, text) = .ok bound ↔
      ∃ value, attributeValue config path attributes name text = .ok value ∧
        kwargs.contains (Text.lowercase name) = false ∧
        bound = kwargs.insert (Text.lowercase name) value := by
  rw [bindAttribute_eq, if_neg (by simp [h])]
  cases attributeValue config path attributes name text with
  | error e => simp
  | ok value =>
      cases kwargs.contains (Text.lowercase name) with
      | true => simp
      | false => simp [eq_comm]

/-- Attributes are bound if all of them that are not metadata bring bindings, of keywords that are
free and differ from each other. -/
theorem foldlM_bindAttribute_eq_ok_iff {entries : List (String × String)} {kwargs bound : Kwargs} :
    entries.foldlM (bindAttribute config path attributes) kwargs = .ok bound ↔
      ∃ bindings, List.Forall₂ (Binds config path attributes) (keywordEntries config entries)
          bindings ∧ (bindings.map (·.1)).Nodup ∧
        (∀ binding ∈ bindings, kwargs.contains binding.1 = false) ∧
        bound = kwargs.insertMany bindings := by
  induction entries generalizing kwargs with
  | nil =>
      constructor
      · intro h
        cases h
        exact ⟨[], .nil, List.nodup_nil, fun binding h => absurd h List.not_mem_nil, rfl⟩
      · rintro ⟨bindings, hforall, -, -, rfl⟩
        cases hforall
        rfl
  | cons entry rest ih =>
      obtain ⟨name, text⟩ := entry
      rw [List.foldlM_cons, bind_ok_iff]
      cases hmetadata : config.isMetadata name with
      | true =>
          have hpassed : keywordEntries config ((name, text) :: rest) =
              keywordEntries config rest := List.filter_cons_of_neg (by simp [hmetadata])
          rw [hpassed, ← ih]
          simp [bindAttribute_of_metadata hmetadata]
      | false =>
          have hkept : keywordEntries config ((name, text) :: rest) =
              (name, text) :: keywordEntries config rest :=
            List.filter_cons_of_pos (by simp [hmetadata])
          rw [hkept]
          constructor
          · rintro ⟨next, hnext, hrest⟩
            obtain ⟨value, hvalue, hfree, rfl⟩ := (bindAttribute_eq_ok_iff hmetadata).1 hnext
            obtain ⟨bindings, hforall, hnodup, hlater, rfl⟩ := ih.1 hrest
            simp only [NameMap.contains_insert, Bool.or_eq_false_iff, beq_eq_false_iff_ne] at hlater
            refine ⟨(Text.lowercase name, value) :: bindings, .cons ⟨rfl, hvalue⟩ hforall, ?_, ?_,
              rfl⟩
            · rw [List.map_cons, List.nodup_cons]
              refine ⟨?_, hnodup⟩
              intro hmem
              obtain ⟨binding, hbinding, heq⟩ := List.mem_map.1 hmem
              exact (hlater binding hbinding).1 heq
            · exact List.forall_mem_cons.2 ⟨hfree, fun binding h => (hlater binding h).2⟩
          · rintro ⟨bindings, hforall, hnodup, hfree, rfl⟩
            cases hforall with
            | @cons _ first _ others hfirst hothers =>
                obtain ⟨keyword, value⟩ := first
                obtain ⟨hkeyword, hvalue⟩ := hfirst
                obtain rfl : keyword = Text.lowercase name := hkeyword
                obtain ⟨hnew, hnodup⟩ := List.nodup_cons.1 hnodup
                obtain ⟨hfree, hlater⟩ := List.forall_mem_cons.1 hfree
                refine ⟨_, (bindAttribute_eq_ok_iff hmetadata).2 ⟨value, hvalue, hfree, rfl⟩, ?_⟩
                refine ih.2 ⟨others, hothers, hnodup, ?_, rfl⟩
                intro binding hbinding
                rw [NameMap.contains_insert, hlater binding hbinding, Bool.or_false,
                  beq_eq_false_iff_ne]
                intro heq
                exact hnew (List.mem_map.2 ⟨binding, hbinding, heq⟩)

/-- The arguments of attributes are the map of the bindings that they bring, if all that are not
metadata bring one and no keyword is bound twice. -/
theorem arguments_eq_ok_iff {kwargs : Kwargs} :
    arguments config path attributes = .ok kwargs ↔
      ∃ bindings, List.Forall₂ (Binds config path attributes)
          (keywordEntries config attributes.entries) bindings ∧
        (bindings.map (·.1)).Nodup ∧ kwargs = .ofList bindings := by
  rw [arguments, foldlM_bindAttribute_eq_ok_iff]
  simp [NameMap.contains, NameMap.ofList]

end BehaviorTree
