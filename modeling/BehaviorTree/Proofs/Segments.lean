import BehaviorTree.Proofs.Carriers

/-! # Qualifiers from end to end

Splitting a qualifier and joining its segments are inverse to each other. Which texts can be split
is told by their dots alone: there are two of them, neither is at an end, and they are not side by
side (`isSome_splitQualifier?_iff`). What is read from a document has segments that join to the text
of the qualifier attribute, element by element. -/

namespace BehaviorTree

section Segments

variable {text : List Char}

theorem segments_ne_nil (text : List Char) : segments text ≠ [] := by
  rw [segments_eq_splitOn]
  exact List.splitOn_ne_nil '.' text

theorem segments_cons_dot (rest : List Char) : segments ('.' :: rest) = [] :: segments rest := by
  rw [segments, if_pos rfl]

/-- A character that is no dot goes in front of the first segment. -/
theorem segments_cons {c : Char} (hc : c ≠ '.') {rest first : List Char}
    {others : List (List Char)} (hrest : segments rest = first :: others) :
    segments (c :: rest) = (c :: first) :: others := by
  rw [segments, if_neg hc, hrest]

theorem length_segments (text : List Char) : (segments text).length = text.count '.' + 1 := by
  induction text with
  | nil => rfl
  | cons c rest ih =>
      by_cases hc : c = '.'
      · subst hc
        rw [segments_cons_dot, List.length_cons, ih, List.count_cons_self]
      · obtain ⟨first, others, hrest⟩ := List.exists_cons_of_ne_nil (segments_ne_nil rest)
        rw [segments_cons hc hrest, List.count_cons_of_ne hc, ← ih, hrest]
        rfl

/-- The first segment is empty when there is no text or a dot comes first. -/
theorem head?_segments_eq_nil_iff :
    (segments text).head? = some [] ↔ text = [] ∨ ['.'] <+: text := by
  cases text with
  | nil => simp [segments]
  | cons c rest =>
      by_cases hc : c = '.'
      · simp [hc, segments_cons_dot]
      · obtain ⟨first, others, hrest⟩ := List.exists_cons_of_ne_nil (segments_ne_nil rest)
        simp [segments_cons hc hrest, List.cons_prefix_cons, Ne.symm hc]

theorem nil_mem_segments_iff_tail :
    [] ∈ segments text ↔ (text = [] ∨ ['.'] <+: text) ∨ [] ∈ (segments text).tail := by
  obtain ⟨first, others, htext⟩ := List.exists_cons_of_ne_nil (segments_ne_nil text)
  rw [← head?_segments_eq_nil_iff, htext, List.mem_cons, List.head?_cons, Option.some_inj,
    eq_comm, List.tail_cons]

/-- A later segment is empty when a dot comes last or right after another one. -/
theorem nil_mem_tail_segments_iff :
    [] ∈ (segments text).tail ↔ ['.'] <:+ text ∨ ['.', '.'] <:+: text := by
  induction text with
  | nil => simp [segments]
  | cons c rest ih =>
      rw [List.suffix_cons_iff, List.infix_cons_iff, List.cons_prefix_cons]
      by_cases hc : c = '.'
      · subst hc
        rw [segments_cons_dot, List.tail_cons, nil_mem_segments_iff_tail, ih]
        simp only [List.cons.injEq, true_and, eq_comm]
        tauto
      · obtain ⟨first, others, hrest⟩ := List.exists_cons_of_ne_nil (segments_ne_nil rest)
        rw [hrest, List.tail_cons] at ih
        rw [segments_cons hc hrest, List.tail_cons, ih]
        simp [Ne.symm hc]

end Segments

theorem isSome_splitQualifier?_iff_segments {qualifier : String} :
    (splitQualifier? qualifier).isSome = true ↔
      (segments qualifier.toList).length = 3 ∧ [] ∉ segments qualifier.toList := by
  unfold splitQualifier?
  split
  · rename_i space category kind hsegments
    have hnil : [] ∈ [space, category, kind] ↔ space = [] ∨ category = [] ∨ kind = [] := by
      simp only [List.mem_cons, List.not_mem_nil, or_false, eq_comm]
    rw [hsegments, hnil]
    split
    · rename_i hempty
      simp [hempty]
    · rename_i hfull
      exact ⟨fun _ => ⟨rfl, hfull⟩, fun _ => rfl⟩
  · rename_i hother
    simp only [Option.isSome_none, Bool.false_eq_true, false_iff, not_and]
    intro hlength
    obtain ⟨space, category, kind, hsegments⟩ := List.length_eq_three.1 hlength
    exact absurd hsegments (hother space category kind)

/-- A text can be split when it has two dots, neither at an end nor side by side. -/
theorem isSome_splitQualifier?_iff {qualifier : String} :
    (splitQualifier? qualifier).isSome = true ↔
      qualifier.toList.count '.' = 2 ∧ ¬ ['.'] <+: qualifier.toList ∧
        ¬ ['.'] <:+ qualifier.toList ∧ ¬ ['.', '.'] <:+: qualifier.toList := by
  rw [isSome_splitQualifier?_iff_segments, length_segments, nil_mem_segments_iff_tail,
    nil_mem_tail_segments_iff]
  constructor
  · rintro ⟨hcount, hnil⟩
    exact ⟨Nat.add_right_cancel hcount, fun h => hnil (.inl (.inr h)),
      fun h => hnil (.inr (.inl h)), fun h => hnil (.inr (.inr h))⟩
  · rintro ⟨hcount, hfirst, hlast, hdouble⟩
    refine ⟨congrArg (· + 1) hcount, ?_⟩
    rintro ((hempty | h) | h | h)
    · rw [hempty] at hcount
      cases hcount
    · exact hfirst h
    · exact hlast h
    · exact hdouble h

namespace Document

open Markup (Element)

variable {config : Config}

/-- The qualifiers of a description are the texts that stand in the elements it describes. -/
theorem map_attribute?_carriers {element : Element} {spec : Spec}
    (h : Describes config element spec) :
    (carriers config element).map (·.attribute? config.qualifierAttribute) =
      spec.nodes.map fun node => some node.qualifier := by
  apply List.forall₂_eq_eq_eq ▸ List.forall₂_map_left_iff.2 (List.forall₂_map_right_iff.2 _)
  apply (forall₂_carriers h).imp
  rintro node described ⟨qualifier, -, -, -⟩
  exact qualifier

theorem segmented_of_mem_nodes {element : Element} {spec node : Spec}
    (h : Describes config element spec) (hnode : node ∈ spec.nodes) : node.Segmented := by
  obtain ⟨carrier, -, hcarrier⟩ := exists_of_forall₂_of_mem (forall₂_carriers h).flip hnode
  obtain ⟨-, segmented, -, -⟩ := hcarrier
  exact segmented

end Document

/-- Splitting a qualifier and joining three segments are inverse to each other. A text is split into
the three segments that it joins with dots, and it is split at all if and only if it has two dots,
neither at an end nor side by side. So the qualifier of a description whose segments have no dots is
split into those segments, and what is read from a document has the texts of the qualifier
attributes for its qualifiers, element by element, and can be split into the same segments again. -/
theorem splits_what_it_joins :
    (∀ qualifier : String,
      (∀ space category kind, splitQualifier? qualifier = some (space, category, kind) ↔
        (IsSegment space ∧ IsSegment category ∧ IsSegment kind) ∧
          qualifier = space ++ "." ++ category ++ "." ++ kind) ∧
      ((splitQualifier? qualifier).isSome = true ↔
        qualifier.toList.count '.' = 2 ∧ ¬ ['.'] <+: qualifier.toList ∧
          ¬ ['.'] <:+ qualifier.toList ∧ ¬ ['.', '.'] <:+: qualifier.toList)) ∧
    (∀ spec : Spec, spec.Segmented →
      splitQualifier? spec.qualifier = some (spec.space, spec.category, spec.kind)) ∧
    ∀ (config : Config) (text : String) (spec : Spec), Document.read config text = .ok spec →
      ∃ root top, Markup.read text = some root ∧ Document.IsTop config root top ∧
        (Document.carriers config top).map (·.attribute? config.qualifierAttribute) =
          spec.nodes.map (fun node => some node.qualifier) ∧
        ∀ node ∈ spec.nodes,
          splitQualifier? node.qualifier = some (node.space, node.category, node.kind) := by
  have hsplit : ∀ spec : Spec, spec.Segmented →
      splitQualifier? spec.qualifier = some (spec.space, spec.category, spec.kind) :=
    fun spec hspec => Spec.splitQualifier?_eq_some_iff.2 ⟨hspec, rfl⟩
  refine ⟨fun qualifier => ⟨fun space category kind => splitQualifier?_eq_some_iff,
    isSome_splitQualifier?_iff⟩, hsplit, ?_⟩
  intro config text spec h
  unfold Document.read at h
  split at h
  · cases h
  · rename_i root hroot
    obtain ⟨top, htop, hdescribes⟩ := Document.readRoot_eq_ok_iff.1 h
    refine ⟨root, top, hroot, htop, Document.map_attribute?_carriers hdescribes, ?_⟩
    intro node hnode
    exact hsplit node (Document.segmented_of_mem_nodes hdescribes hnode)

/-- A node in another one. A segment may have blanks, and letters beyond those of English. -/
def fetchOil : String :=
  "<D><T><Node Class='BT.Composites.Sequence'><Node Class='BT.Actions.Öl holen'/></Node></T></D>"

theorem splits_what_it_joins_fetchOil :
    ∃ root top spec, Document.read .default fetchOil = .ok spec ∧
      Markup.read fetchOil = some root ∧ Document.IsTop .default root top ∧
      (Document.carriers .default top).map (·.attribute? "Class") =
        [some "BT.Composites.Sequence", some "BT.Actions.Öl holen"] ∧
      (Spec.action "Öl holen").Segmented ∧
      splitQualifier? "BT.Actions.Öl holen" = some ("BT", "Actions", "Öl holen") := by
  have hqualifiers : (Document.read .default fetchOil).toOption.map (·.nodes.map Spec.qualifier) =
      some ["BT.Composites.Sequence", "BT.Actions.Öl holen"] := by
    decide +kernel
  have hsegmented : (Spec.action "Öl holen").Segmented := by decide
  obtain ⟨-, hsplit, hdocument⟩ := splits_what_it_joins
  cases hread : Document.read .default fetchOil with
  | error e =>
      rw [hread] at hqualifiers
      cases hqualifiers
  | ok spec =>
      obtain ⟨root, top, hroot, htop, hcarriers, -⟩ := hdocument .default fetchOil spec hread
      rw [hread] at hqualifiers
      have hnodes : spec.nodes.map Spec.qualifier =
          ["BT.Composites.Sequence", "BT.Actions.Öl holen"] := Option.some.inj hqualifiers
      refine ⟨root, top, spec, rfl, hroot, htop, ?_, hsegmented, hsplit _ hsegmented⟩
      have hsame : (Document.carriers .default top).map (·.attribute? "Class") =
          (spec.nodes.map Spec.qualifier).map some := by
        rw [List.map_map]
        exact hcarriers
      rw [hsame, hnodes]
      rfl

end BehaviorTree
