import BehaviorTree.Document

/-! # Qualifiers and their segments

A qualifier can be split when it is three segments joined by dots, where a segment is some text that
has no dot in it. The segments are then determined by the qualifier, so splitting a qualifier and
joining its segments undo each other (`splitQualifier?_eq_some_iff`). -/

namespace BehaviorTree

theorem segments_eq_splitOn (text : List Char) : segments text = text.splitOn '.' := by
  induction text with
  | nil => rfl
  | cons c rest ih =>
      rw [segments, ih, List.splitOn_cons_eq_if_modifyHead]
      by_cases h : c = '.'
      · simp [h]
      · obtain ⟨first, others, hsplit⟩ :=
          List.exists_cons_of_ne_nil (List.splitOn_ne_nil '.' rest)
        simp [h, hsplit]

theorem intercalate_segments (text : List Char) : ['.'].intercalate (segments text) = text := by
  rw [segments_eq_splitOn]
  exact List.intercalate_splitOn '.'

theorem segments_intercalate {parts : List (List Char)} (hdots : ∀ part ∈ parts, '.' ∉ part)
    (hparts : parts ≠ []) : segments (['.'].intercalate parts) = parts := by
  rw [segments_eq_splitOn]
  exact List.splitOn_intercalate '.' hdots hparts

/-- The parts between the dots have no dots. -/
theorem dot_not_mem_of_mem_segments {text part : List Char} (h : part ∈ segments text) :
    '.' ∉ part := by
  induction text generalizing part with
  | nil =>
      obtain rfl : part = [] := by simpa [segments] using h
      exact List.not_mem_nil
  | cons c rest ih =>
      rw [segments] at h
      split at h
      · rcases List.mem_cons.1 h with rfl | h
        · exact List.not_mem_nil
        · exact ih h
      · rename_i hc
        -- The character goes in front of the first part of the rest.
        cases hrest : segments rest with
        | nil =>
            rw [hrest, List.mem_singleton] at h
            simp [h, Ne.symm hc]
        | cons first others =>
            rw [hrest] at h ih
            rcases List.mem_cons.1 h with rfl | h
            · simp [Ne.symm hc, ih List.mem_cons_self]
            · exact ih (List.mem_cons_of_mem _ h)

/-- A segment of a qualifier: a text that is not empty and has no dot. -/
def IsSegment (s : String) : Prop := s ≠ "" ∧ '.' ∉ s.toList

instance (s : String) : Decidable (IsSegment s) :=
  inferInstanceAs (Decidable (s ≠ "" ∧ '.' ∉ s.toList))

theorem isSegment_ofList_iff {cs : List Char} :
    IsSegment (String.ofList cs) ↔ cs ≠ [] ∧ '.' ∉ cs := by
  simp [IsSegment]

theorem toList_qualifier (space category kind : String) :
    (space ++ "." ++ category ++ "." ++ kind).toList =
      ['.'].intercalate [space.toList, category.toList, kind.toList] := by
  simp [List.intercalate]

/-- A qualifier is split into the three segments that it joins. -/
theorem splitQualifier?_eq_some_iff {qualifier space category kind : String} :
    splitQualifier? qualifier = some (space, category, kind) ↔
      (IsSegment space ∧ IsSegment category ∧ IsSegment kind) ∧
        qualifier = space ++ "." ++ category ++ "." ++ kind := by
  constructor
  · intro h
    unfold splitQualifier? at h
    split at h
    · rename_i first second third hsegments
      have hdots : ∀ part ∈ [first, second, third], '.' ∉ part := by
        intro part hpart
        exact dot_not_mem_of_mem_segments (hsegments ▸ hpart)
      split at h
      · cases h
      · rename_i hne
        obtain ⟨hfirst, hsecond, hthird⟩ : first ≠ [] ∧ second ≠ [] ∧ third ≠ [] := by
          simpa only [not_or] using hne
        cases h
        refine ⟨⟨?_, ?_, ?_⟩, ?_⟩
        · exact isSegment_ofList_iff.2 ⟨hfirst, hdots first (by simp)⟩
        · exact isSegment_ofList_iff.2 ⟨hsecond, hdots second (by simp)⟩
        · exact isSegment_ofList_iff.2 ⟨hthird, hdots third (by simp)⟩
        · apply String.toList_inj.1
          rw [toList_qualifier, ← intercalate_segments qualifier.toList, hsegments]
          simp only [String.toList_ofList]
    · cases h
  · rintro ⟨⟨hspace, hcategory, hkind⟩, rfl⟩
    have hdots : ∀ part ∈ [space.toList, category.toList, kind.toList], '.' ∉ part := by
      simp [hspace.2, hcategory.2, hkind.2]
    unfold splitQualifier?
    rw [toList_qualifier, segments_intercalate hdots (List.cons_ne_nil _ _)]
    simp [hspace.1, hcategory.1, hkind.1]

namespace Spec

/-- The three segments of a description can be told apart in its qualifier. -/
structure Segmented (spec : Spec) : Prop where
  space : IsSegment spec.space
  category : IsSegment spec.category
  kind : IsSegment spec.kind

theorem segmented_iff {spec : Spec} : spec.Segmented ↔
    IsSegment spec.space ∧ IsSegment spec.category ∧ IsSegment spec.kind := by
  constructor
  · rintro ⟨space, category, kind⟩
    exact ⟨space, category, kind⟩
  · rintro ⟨space, category, kind⟩
    exact ⟨space, category, kind⟩

instance (spec : Spec) : Decidable spec.Segmented := decidable_of_iff' _ segmented_iff

/-- The qualifier of a description is split into its segments. -/
theorem splitQualifier?_eq_some_iff {spec : Spec} {text : String} :
    splitQualifier? text = some (spec.space, spec.category, spec.kind) ↔
      spec.Segmented ∧ text = spec.qualifier := by
  rw [BehaviorTree.splitQualifier?_eq_some_iff, segmented_iff]
  rfl

end Spec

end BehaviorTree
