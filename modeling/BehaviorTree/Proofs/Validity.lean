import BehaviorTree.Proofs.Position

/-! # Local validity

Whether a node can be compiled apart from its children is a matter of its site alone. `Site.Valid`
says which sites can, and `Site.fault?` makes the checks one after the other and gives the error of
the first one that fails. The plan of a node exists exactly at the valid sites, and where there is
none the error is that of the first failing check (`Spec.of?_plan`). -/

namespace BehaviorTree

namespace Site

variable (config : Config) (site : Site)

/-- A node that can be compiled, apart from its children. -/
inductive Valid : Prop where
  | composite (category : site.category = "Composites")
      (kind : site.kind ∈ ["Selector", "Sequence", "Parallel", "Alternate"])
      (arity : 1 ≤ site.arity)
  | loop (category : site.category = "Decorators") (kind : site.kind = "Loop")
      (arity : site.arity = 1)
      (count : ∃ text, site.attributes.get? config.countAttribute = some text ∧
        ∃ count : UInt32, Text.readInteger .uint32 (Text.trim text) = .ok count.toNat)
  | leaf (category : site.category = "Conditions" ∨ site.category = "Actions")
      (arity : site.arity = 0)
      (kwargs : ∃ kwargs, arguments config site.path site.attributes = .ok kwargs)

/-- The category has to be known. -/
def categoryFault? : Option CompileError :=
  if site.category ∈ ["Composites", "Decorators", "Conditions", "Actions"] then none
  else some (.unknownCategory site.category site.path)

/-- The kind of a composite or decorator has to be known. -/
def kindFault? : Option CompileError :=
  if site.category = "Composites" ∧
      site.kind ∉ ["Selector", "Sequence", "Parallel", "Alternate"] then
    some (.unknownKind .composite site.kind site.path)
  else if site.category = "Decorators" ∧ site.kind ≠ "Loop" then
    some (.unknownKind .decorator site.kind site.path)
  else none

/-- A composite has children, a decorator has one, a leaf has none. -/
def arityFault? : Option CompileError :=
  if site.category = "Composites" ∧ site.arity < 1 then
    some (.wrongArity site.kind site.path (.atLeast 1) site.arity)
  else if site.category = "Decorators" ∧ site.arity ≠ 1 then
    some (.wrongArity site.kind site.path (.exactly 1) site.arity)
  else if (site.category = "Conditions" ∨ site.category = "Actions") ∧ site.arity ≠ 0 then
    some (.wrongArity site.kind site.path (.exactly 0) site.arity)
  else none

/-- A loop has to have a count. -/
def missingCount? : Option CompileError :=
  if site.category = "Decorators" ∧ site.attributes.get? config.countAttribute = none then
    some (.missingAttribute config.countAttribute site.path)
  else none

/-- The count of a loop has to be a word of 32 bits, blanks around it apart. -/
def badCount? : Option CompileError :=
  if site.category = "Decorators" then
    match site.attributes.get? config.countAttribute with
    | none => none
    | some text => match Text.readInteger .uint32 (Text.trim text) with
      | .ok _ => none
      | .error fault =>
          some (.invalidAttribute config.countAttribute text (.badCount fault) site.path)
  else none

/-- The attributes of a leaf have to become arguments. -/
def argumentsFault? : Option CompileError :=
  if site.category = "Conditions" ∨ site.category = "Actions" then
    match arguments config site.path site.attributes with
    | .ok _ => none
    | .error e => some e
  else none

/-- The checks of a node in the order in which they are made. -/
def checks : List (Option CompileError) :=
  [site.categoryFault?, site.kindFault?, site.arityFault?, site.missingCount? config,
    site.badCount? config, site.argumentsFault? config]

/-- The error of the first check that fails. -/
def fault? : Option CompileError := (site.checks config).findSome? id

end Site

/-! ## Texts that the checks look up -/

namespace Category

theorem ofSegment?_eq_none_iff {segment : String} :
    ofSegment? segment = none ↔
      segment ∉ ["Composites", "Decorators", "Conditions", "Actions"] := by
  simp [ofSegment?, List.find?_eq_none, all, Category.segment, @eq_comm String segment]

end Category

namespace Policy

theorem ofKind?_eq_none_iff {kind : String} :
    ofKind? kind = none ↔ kind ∉ ["Selector", "Sequence", "Parallel", "Alternate"] := by
  unfold ofKind?
  split <;> simp_all

end Policy

namespace Text

theorem readUp_bounds {greatest acc n : Int} {chars : List Char} (hlow : 0 ≤ acc)
    (hhigh : acc ≤ greatest) (h : readUp greatest acc chars = .ok n) : 0 ≤ n ∧ n ≤ greatest := by
  induction chars generalizing acc with
  | nil =>
      cases h
      exact ⟨hlow, hhigh⟩
  | cons c rest ih =>
      rw [readUp] at h
      split at h
      · dsimp only at h
        split at h
        · rename_i hnext
          exact ih (by omega) hnext h
        · cases h
      · cases h

/-- What is read as an unsigned word of 32 bits is one. -/
theorem readInteger_uint32_bounds {s : String} {n : Int} (h : readInteger .uint32 s = .ok n) :
    0 ≤ n ∧ n ≤ 0xffffffff := by
  rw [readInteger, readIntegerChars.eq_def] at h
  split at h
  · cases h
  · cases h
  · cases h
  · exact readUp_bounds (by decide) (by decide) h
  · rw [if_neg (by decide)] at h
    cases h
  · exact readUp_bounds (by decide) (by decide) h

theorem toNat_ofNat_toNat_of_readInteger {s : String} {n : Int}
    (h : readInteger .uint32 s = .ok n) : ((UInt32.ofNat n.toNat).toNat : Int) = n := by
  obtain ⟨hlow, hhigh⟩ := readInteger_uint32_bounds h
  have hmod : n.toNat % 2 ^ 32 = n.toNat := Nat.mod_eq_of_lt (by omega)
  rw [UInt32.toNat_ofNat', hmod]
  omega

end Text

/-! ## Errors of arguments carry the path -/

theorem attributeValue_error_path {config : Config} {path name text : String}
    {attributes : NameMap String} {e : CompileError}
    (h : attributeValue config path attributes name text = .error e) : e.path = path := by
  rw [attributeValue] at h
  split at h
  · cases h
    rfl
  split at h
  · cases h
    rfl
  split at h
  · cases h
    rfl
  · cases h

theorem bindAttribute_error_path {config : Config} {path : String} {attributes : NameMap String}
    {kwargs : Kwargs} {entry : String × String} {e : CompileError}
    (h : bindAttribute config path attributes kwargs entry = .error e) : e.path = path := by
  obtain ⟨name, text⟩ := entry
  rw [bindAttribute_eq] at h
  split at h
  · cases h
  split at h
  · rename_i hvalue
    cases h
    exact attributeValue_error_path hvalue
  split at h
  · cases h
    rfl
  · cases h

/-- An error of the arguments of a node carries the path of the node. -/
theorem arguments_error_path {config : Config} {path : String} {attributes : NameMap String}
    {e : CompileError} (h : arguments config path attributes = .error e) : e.path = path := by
  rw [arguments] at h
  generalize attributes.entries = entries, (NameMap.empty : Kwargs) = kwargs at h
  induction entries generalizing kwargs with
  | nil => cases h
  | cons entry rest ih =>
      rw [List.foldlM_cons] at h
      cases hentry : bindAttribute config path attributes kwargs entry with
      | error first =>
          rw [hentry] at h
          cases h
          exact bindAttribute_error_path hentry
      | ok kwargs =>
          rw [hentry] at h
          exact ih kwargs h

/-! ## The checks that concern a category -/

namespace Site

variable {config : Config} {site : Site}

theorem fault?_of_unknown
    (h : site.category ∉ ["Composites", "Decorators", "Conditions", "Actions"]) :
    site.fault? config = some (.unknownCategory site.category site.path) := by
  simp only [fault?, checks, categoryFault?, if_neg h]
  rfl

theorem fault?_of_composite (h : site.category = "Composites") :
    site.fault? config =
      if site.kind ∉ ["Selector", "Sequence", "Parallel", "Alternate"] then
        some (.unknownKind .composite site.kind site.path)
      else if site.arity < 1 then
        some (.wrongArity site.kind site.path (.atLeast 1) site.arity)
      else none := by
  simp only [fault?, checks, categoryFault?, kindFault?, arityFault?, missingCount?, badCount?,
    argumentsFault?, h]
  by_cases hkind : site.kind ∈ ["Selector", "Sequence", "Parallel", "Alternate"] <;>
    by_cases harity : site.arity < 1 <;> simp [hkind, harity]

theorem fault?_of_decorator (h : site.category = "Decorators") :
    site.fault? config =
      if site.kind ≠ "Loop" then some (.unknownKind .decorator site.kind site.path)
      else if site.arity ≠ 1 then
        some (.wrongArity site.kind site.path (.exactly 1) site.arity)
      else (site.missingCount? config).or (site.badCount? config) := by
  have hcategory : site.categoryFault? = none := by simp [categoryFault?, h]
  have harguments : site.argumentsFault? config = none := by simp [argumentsFault?, h]
  simp only [fault?, checks, hcategory, harguments]
  by_cases hkind : site.kind = "Loop" <;> by_cases harity : site.arity = 1 <;>
    cases hmissing : site.missingCount? config <;> cases hbad : site.badCount? config <;>
    simp [kindFault?, arityFault?, h, hkind, harity]

theorem fault?_of_leaf (h : site.category = "Conditions" ∨ site.category = "Actions") :
    site.fault? config =
      if site.arity ≠ 0 then some (.wrongArity site.kind site.path (.exactly 0) site.arity)
      else site.argumentsFault? config := by
  have hcomposite : site.category ≠ "Composites" := by
    rcases h with h | h <;> rw [h] <;> decide
  have hdecorator : site.category ≠ "Decorators" := by
    rcases h with h | h <;> rw [h] <;> decide
  have hcategory : site.categoryFault? = none := by
    rcases h with h | h <;> simp [categoryFault?, h]
  simp only [fault?, checks, hcategory, kindFault?, arityFault?, missingCount?, badCount?,
    hcomposite, hdecorator, h, false_and, true_and, if_false]
  by_cases harity : site.arity = 0 <;> cases site.argumentsFault? config <;> simp [harity]

/-- A decorator that passes both checks of its count has one. -/
theorem count_of_checks (hcategory : site.category = "Decorators")
    (h : (site.missingCount? config).or (site.badCount? config) = none) :
    ∃ text, site.attributes.get? config.countAttribute = some text ∧
      ∃ count : UInt32, Text.readInteger .uint32 (Text.trim text) = .ok count.toNat := by
  rw [Option.or_eq_none_iff] at h
  obtain ⟨hmissing, hbad⟩ := h
  cases htext : site.attributes.get? config.countAttribute with
  | none => simp [missingCount?, hcategory, htext] at hmissing
  | some text =>
      refine ⟨text, rfl, ?_⟩
      simp only [badCount?, hcategory, if_true, htext] at hbad
      cases hread : Text.readInteger .uint32 (Text.trim text) with
      | error fault => simp [hread] at hbad
      | ok n =>
          exact ⟨UInt32.ofNat n.toNat, by rw [Text.toNat_ofNat_toNat_of_readInteger hread]⟩

theorem valid_of_fault?_eq_none (h : site.fault? config = none) : site.Valid config := by
  by_cases hknown : site.category ∈ ["Composites", "Decorators", "Conditions", "Actions"]
  · simp only [List.mem_cons, List.not_mem_nil, or_false] at hknown
    rcases hknown with hcategory | hcategory | hcategory
    · rw [fault?_of_composite hcategory] at h
      split at h
      · cases h
      rename_i hkind
      split at h
      · cases h
      rename_i harity
      exact .composite hcategory (Classical.not_not.1 hkind) (by omega)
    · rw [fault?_of_decorator hcategory] at h
      split at h
      · cases h
      rename_i hkind
      split at h
      · cases h
      rename_i harity
      refine .loop hcategory (Classical.not_not.1 hkind) (Classical.not_not.1 harity) ?_
      exact count_of_checks hcategory h
    · rw [fault?_of_leaf hcategory] at h
      split at h
      · cases h
      rename_i harity
      refine .leaf hcategory (Classical.not_not.1 harity) ?_
      rw [argumentsFault?, if_pos hcategory] at h
      split at h
      · rename_i kwargs hkwargs
        exact ⟨kwargs, hkwargs⟩
      · cases h
  · rw [fault?_of_unknown hknown] at h
    cases h

theorem fault?_eq_none_of_valid (h : site.Valid config) : site.fault? config = none := by
  cases h with
  | composite hcategory hkind harity =>
      rw [fault?_of_composite hcategory, if_neg (not_not_intro hkind), if_neg (by omega)]
  | loop hcategory hkind harity hcount =>
      rw [fault?_of_decorator hcategory, if_neg (not_not_intro hkind),
        if_neg (not_not_intro harity)]
      obtain ⟨text, htext, count, hread⟩ := hcount
      simp [missingCount?, badCount?, htext, hread]
  | leaf hcategory harity hkwargs =>
      rw [fault?_of_leaf hcategory, if_neg (not_not_intro harity), argumentsFault?,
        if_pos hcategory]
      obtain ⟨kwargs, hkwargs⟩ := hkwargs
      rw [hkwargs]

/-- A site is valid exactly when none of its checks fails. -/
theorem fault?_eq_none_iff : site.fault? config = none ↔ site.Valid config :=
  ⟨valid_of_fault?_eq_none, fault?_eq_none_of_valid⟩

/-- The error of a site carries the path of the site. -/
theorem path_of_fault? {e : CompileError} (h : site.fault? config = some e) :
    e.path = site.path := by
  obtain ⟨check, hcheck, hfault⟩ := List.exists_of_findSome?_eq_some h
  simp only [checks, List.mem_cons, List.not_mem_nil, or_false] at hcheck
  simp only [id_eq] at hfault
  rcases hcheck with rfl | rfl | rfl | rfl | rfl | rfl
  · rw [categoryFault?] at hfault
    split at hfault <;> cases hfault
    rfl
  · rw [kindFault?] at hfault
    split at hfault
    · cases hfault
      rfl
    · split at hfault <;> cases hfault
      rfl
  · rw [arityFault?] at hfault
    split at hfault
    · cases hfault
      rfl
    split at hfault
    · cases hfault
      rfl
    · split at hfault <;> cases hfault
      rfl
  · rw [missingCount?] at hfault
    split at hfault <;> cases hfault
    rfl
  · rw [badCount?] at hfault
    split at hfault
    · split at hfault
      · cases hfault
      · split at hfault <;> cases hfault
        rfl
    · cases hfault
  · rw [argumentsFault?] at hfault
    split at hfault
    · split at hfault
      · cases hfault
      · rename_i herror
        cases hfault
        exact arguments_error_path herror
    · cases hfault

end Site

/-! ## Plans and faults -/

/-- The error that a result is, if it is one. -/
def CompileError.of? {α : Type} : Except CompileError α → Option CompileError
  | .ok _ => none
  | .error e => some e

namespace CompileError

variable {α β : Type}

theorem of?_eq_some_iff {result : Except CompileError α} {e : CompileError} :
    of? result = some e ↔ result = .error e := by
  cases result <;> simp [of?]

theorem of?_eq_none_iff {result : Except CompileError α} :
    of? result = none ↔ ∃ a, result = .ok a := by
  cases result <;> simp [of?]

/-- Two computations in sequence fail where the first one does, and else where the second does. -/
theorem of?_bind (result : Except CompileError α) (next : α → Except CompileError β) :
    of? (result >>= next) = match result with
      | .ok a => of? (next a)
      | .error e => some e := by
  cases result <;> rfl

end CompileError

namespace Spec

open CompileError

variable {config : Config} {path : String} {spec : Spec}

/-- A check of the number of children comes before what follows it. -/
theorem of?_checkArity_bind {α : Type} (expected : Arity) (next : Except CompileError α) :
    of? (spec.checkArity path expected >>= fun _ => next) =
      if expected.admits spec.children.length then of? next
      else some (.wrongArity spec.kind path expected spec.children.length) := by
  rw [of?_bind, checkArity]
  cases expected.admits spec.children.length <;> rfl

theorem of?_loopCount {site : Site} (hsite : site = ⟨spec.head, path⟩)
    (hcategory : spec.category = "Decorators") :
    of? (spec.loopCount config path) = (site.missingCount? config).or (site.badCount? config) := by
  subst hsite
  simp only [Site.missingCount?, Site.badCount?, head, hcategory, true_and, if_true]
  rw [loopCount]
  cases spec.attributes.get? config.countAttribute with
  | none => rfl
  | some text =>
      cases hread : Text.readInteger .uint32 (Text.trim text) <;> simp [of?, hread]

theorem of?_planLeaf (role : Role) {site : Site} (hsite : site = ⟨spec.head, path⟩)
    (hcategory : spec.category = "Conditions" ∨ spec.category = "Actions") :
    of? (spec.planLeaf config path role) = site.fault? config := by
  subst hsite
  rw [planLeaf, of?_checkArity_bind, of?_bind, Site.fault?_of_leaf hcategory]
  have harguments : Site.argumentsFault? config ⟨spec.head, path⟩ =
      of? (arguments config path spec.attributes) := by
    simp only [Site.argumentsFault?, head, hcategory, if_true]
    cases arguments config path spec.attributes <;> rfl
  rw [harguments]
  by_cases harity : spec.children.length = 0 <;>
    cases arguments config path spec.attributes <;>
    simp [Arity.admits, head, harity, of?, pure, Except.pure]

theorem of?_plan_composite (hcategory : spec.category = "Composites") :
    of? (spec.plan config path) = Site.fault? config ⟨spec.head, path⟩ := by
  have hsegment : Category.ofSegment? spec.category = some .composite :=
    Category.ofSegment?_eq_some_iff.2 hcategory
  rw [plan, hsegment, Site.fault?_of_composite hcategory]
  cases hpolicy : Policy.ofKind? spec.kind with
  | none =>
      have hkind : (⟨spec.head, path⟩ : Site).kind ∉
          ["Selector", "Sequence", "Parallel", "Alternate"] :=
        Policy.ofKind?_eq_none_iff.1 hpolicy
      rw [if_pos hkind]
      rfl
  | some policy =>
      have hkind : ¬ (⟨spec.head, path⟩ : Site).kind ∉
          ["Selector", "Sequence", "Parallel", "Alternate"] := by
        intro hkind
        have hnone : Policy.ofKind? spec.kind = none := Policy.ofKind?_eq_none_iff.2 hkind
        rw [hnone] at hpolicy
        cases hpolicy
      rw [if_neg hkind]
      dsimp only
      rw [of?_checkArity_bind]
      by_cases harity : 1 ≤ spec.children.length
      · have hlt : ¬ spec.children.length < 1 := by omega
        simp [Arity.admits, head, harity, hlt, of?, pure, Except.pure]
      · have hlt : spec.children.length < 1 := by omega
        simp only [Arity.admits, head, harity, hlt, decide_false, if_true]
        rfl

theorem of?_plan_decorator (hcategory : spec.category = "Decorators") :
    of? (spec.plan config path) = Site.fault? config ⟨spec.head, path⟩ := by
  have hsegment : Category.ofSegment? spec.category = some .decorator :=
    Category.ofSegment?_eq_some_iff.2 hcategory
  rw [plan, hsegment, Site.fault?_of_decorator hcategory, ← of?_loopCount rfl hcategory]
  dsimp only
  by_cases hkind : spec.kind = "Loop"
  · have hsite : ¬ (⟨spec.head, path⟩ : Site).kind ≠ "Loop" := not_not_intro hkind
    rw [if_pos hkind, if_neg hsite, of?_checkArity_bind, of?_bind]
    by_cases harity : spec.children.length = 1 <;>
      cases spec.loopCount config path <;>
      simp [Arity.admits, head, harity, of?, pure, Except.pure]
  · have hsite : (⟨spec.head, path⟩ : Site).kind ≠ "Loop" := hkind
    rw [if_neg hkind, if_pos hsite]
    rfl

/-- A node has a plan exactly when no check fails, and otherwise its error is that of the first
check that does. -/
theorem of?_plan (config : Config) (path : String) (spec : Spec) :
    of? (spec.plan config path) = Site.fault? config ⟨spec.head, path⟩ := by
  cases hsegment : Category.ofSegment? spec.category with
  | none =>
      rw [plan, hsegment, Site.fault?_of_unknown (Category.ofSegment?_eq_none_iff.1 hsegment)]
      rfl
  | some category =>
      have hcategory := Category.ofSegment?_eq_some_iff.1 hsegment
      cases category with
      | composite => exact of?_plan_composite hcategory
      | decorator => exact of?_plan_decorator hcategory
      | condition =>
          rw [plan, hsegment]
          exact of?_planLeaf .condition rfl (.inl hcategory)
      | action =>
          rw [plan, hsegment]
          exact of?_planLeaf .action rfl (.inr hcategory)

end Spec

end BehaviorTree
