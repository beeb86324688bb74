import BehaviorTree.CommandLine
import BehaviorTree.Proofs.Numerals

/-! # Asking for a command

A command has its words, and the file of the settings may be given anywhere among them, in any of
three forms. A word that is no option is taken for what stands in its place: the value of the option
before it, the name of the command, or the tree. So what is asked for is read from the words alone,
and the settings from the option, wherever it stands. A run has two more options with values, which
may be given in any order (`GivesRun`): the arguments are read one after the other, each leaves what
was given before as it was, and what is known in the end is what they all gave. -/

namespace BehaviorTree.CommandLine

/-- A word that is taken for what it is: it is not empty, and no option. -/
def IsPlain (word : String) : Prop := word ≠ "" ∧ word.toList.head? ≠ some '-'

instance (word : String) : Decidable (IsPlain word) := inferInstanceAs (Decidable (_ ∧ _))

/-- An option is given this value: under its long name, under its letter, or attached. -/
inductive Spells (long letter value : String) : List String → Prop where
  | apart (plain : IsPlain value) : Spells long letter value [long, value]
  | short (plain : IsPlain value) : Spells long letter value [letter, value]
  | attached (nonempty : value ≠ "") : Spells long letter value [long ++ "=" ++ value]

/-- Arguments that give the file of the settings, or give none. -/
inductive GivesSettings : Option String → List String → Prop where
  | none : GivesSettings none []
  | some {path : String} {options : List String}
      (spelled : Spells "--config" "-c" path options) : GivesSettings (some path) options

/-- Some words with the settings given before, among or after them. -/
def Asks (settings : Option String) (words args : List String) : Prop :=
  ∃ before options after, words = before ++ after ∧ GivesSettings settings options ∧
    args = before ++ options ++ after

/-- Arguments that give, in any order and each at most once, the settings of a run, its tree, its
script and the number of its ticks. -/
inductive GivesRun : (settings tree script : Option String) → (ticks : Option UInt64) →
    List String → Prop where
  | nothing : GivesRun none none none none []
  | settings {path : String} {tree script : Option String} {ticks : Option UInt64}
      {args options : List String} (others : GivesRun none tree script ticks args)
      (spelled : Spells "--config" "-c" path options) :
      GivesRun (some path) tree script ticks (args ++ options)
  | tree {path : String} {settings script : Option String} {ticks : Option UInt64}
      {args : List String} (others : GivesRun settings none script ticks args)
      (plain : IsPlain path) : GivesRun settings (some path) script ticks (args ++ [path])
  | script {path : String} {settings tree : Option String} {ticks : Option UInt64}
      {args options : List String} (others : GivesRun settings tree none ticks args)
      (spelled : Spells "--agent" "-a" path options) :
      GivesRun settings tree (some path) ticks (args ++ options)
  | ticks {n : UInt64} {settings tree script : Option String} {args options : List String}
      (others : GivesRun settings tree script none args)
      (spelled : Spells "--ticks" "-t" (toString n.toNat) options) :
      GivesRun settings tree script (some n) (args ++ options)

/-- Arguments that ask for a run of a tree with a script. The settings are given before the name of
the command or after it, or not at all; if no number of ticks is given, it is one. -/
inductive AsksRun : (settings : Option String) → (tree script : String) → (ticks : UInt64) →
    List String → Prop where
  | settingsBefore {settings : Option String} {tree script : String} {ticks : Option UInt64}
      {options rest : List String} (first : GivesSettings settings options)
      (second : GivesRun none (some tree) (some script) ticks rest) :
      AsksRun settings tree script (ticks.getD 1) (options ++ "run" :: rest)
  | settingsAfter {settings : Option String} {tree script : String} {ticks : Option UInt64}
      {rest : List String} (all : GivesRun settings (some tree) (some script) ticks rest) :
      AsksRun settings tree script (ticks.getD 1) ("run" :: rest)

section Args

variable {verb : Option Verb} {given : Given} {word : String} {rest : List String}

theorem fill_none (h : word ≠ "") : fill none word = .ok (some word) := by
  simp [fill, h]

/-- A plain word is the value of an option that waits for one, or the tree after the name of the
command. -/
theorem readArgs_plain (h : IsPlain word) (pending : Option Switch) :
    readArgs verb given pending (word :: rest) =
      match pending, verb with
      | some switch, _ =>
          given.assign word switch >>= fun given => readArgs verb given none rest
      | none, some _ => given.place word >>= fun given => readArgs verb given none rest
      | none, none => match verb? word with
        | some named => .ok (given, some (named, rest))
        | none => .error (if word = helpWord then helpOn rest else .misuse) := by
  have hshape : ∀ rest, word.toList ≠ '-' :: rest := by
    intro rest hword
    exact h.2 (by rw [hword]; rfl)
  conv =>
    lhs
    unfold readArgs
  cases pending <;> dsimp only <;> split
  all_goals first | exact absurd ‹_› (hshape _) | rfl

theorem readArgs_tree {named : Verb} (h : IsPlain word) (hfree : given.tree = none) :
    readArgs (some named) given none (word :: rest) =
      readArgs (some named) { given with tree := some word } none rest := by
  have hplace : given.place word = .ok { given with tree := some word } := by
    rw [Given.place, hfree, fill_none h.1]
    rfl
  rw [readArgs_plain h]
  dsimp only
  rw [hplace]
  rfl

/-- A word behind two hyphens is a long option. -/
theorem readArgs_long {name : List Char} (h : word.toList = '-' :: '-' :: name)
    (hname : name ≠ []) : readArgs verb given none (word :: rest) =
      readLong verb given name >>= fun read => readArgs verb read.1 read.2 rest := by
  conv =>
    lhs
    unfold readArgs
    dsimp only
    rw [h]
  cases name with
  | nil => exact absurd rfl hname
  | cons c name => rfl

/-- A letter behind one hyphen is an option. -/
theorem readArgs_letter {letter : Char} (h : word.toList = ['-', letter]) (hletter : letter ≠ '-') :
    readArgs verb given none (word :: rest) =
      readLetters verb given [letter] >>= fun read => readArgs verb read.1 read.2 rest := by
  conv =>
    lhs
    unfold readArgs
    dsimp only
    rw [h]
  split
  · rename_i heq
    cases heq
    exact absurd rfl hletter
  · rename_i heq
    cases heq
    exact absurd rfl hletter
  · rename_i heq
    cases heq
    rfl
  · rename_i hother
    exact absurd rfl (hother letter [])

theorem readArgs_json (hfree : given.json = false) :
    readArgs (some .dump) given none ("--json" :: rest) =
      readArgs (some .dump) { given with json := true } none rest := by
  have hmark : given.mark .json = .ok { given with json := true } := by
    simp [Given.mark, hfree]
  have hlong : readLong (some .dump) given ['j', 's', 'o', 'n'] =
      .ok ({ given with json := true }, none) := by
    show (given.mark .json >>= fun given => .ok (given, none)) = _
    rw [hmark]
    rfl
  rw [@readArgs_long _ _ "--json" _ ['j', 's', 'o', 'n'] rfl (List.cons_ne_nil _ _), hlong]
  rfl

/-! ## Options with values -/

theorem Spells.ne_empty {long letter value : String} {options : List String}
    (h : Spells long letter value options) : value ≠ "" := by
  cases h with
  | apart plain => exact plain.1
  | short plain => exact plain.1
  | attached nonempty => exact nonempty

section Switch

variable {switch : Switch}

/-- An option with a value waits for it, or has it behind an equals sign. -/
theorem readLong_of_takesValue (hvalue : switch.takesValue = true)
    (hknown : switch.knownAt verb = true) :
    readLong verb given switch.long.toList = .ok (given, some switch) ∧
      ∀ value : List Char, readLong verb given (switch.long.toList ++ '=' :: value) =
        given.assign (String.ofList value) switch >>= fun given => .ok (given, none) := by
  cases switch with
  | config => exact ⟨rfl, fun _ => rfl⟩
  | agent =>
      obtain rfl : verb = some .run := by simpa [Switch.knownAt] using hknown
      exact ⟨rfl, fun _ => rfl⟩
  | ticks =>
      obtain rfl : verb = some .run := by simpa [Switch.knownAt] using hknown
      exact ⟨rfl, fun _ => rfl⟩
  | _ => cases hvalue

theorem readLetters_of_takesValue {letter : Char} (hletter : switch.letter? = some letter)
    (hvalue : switch.takesValue = true) (hknown : switch.knownAt verb = true) :
    letter ≠ '-' ∧ readLetters verb given [letter] = .ok (given, some switch) := by
  cases switch with
  | config =>
      cases hletter
      exact ⟨by decide, rfl⟩
  | agent =>
      obtain rfl : verb = some .run := by simpa [Switch.knownAt] using hknown
      cases hletter
      exact ⟨by decide, rfl⟩
  | ticks =>
      obtain rfl : verb = some .run := by simpa [Switch.knownAt] using hknown
      cases hletter
      exact ⟨by decide, rfl⟩
  | _ => cases hvalue

/-- An option takes its value in whichever form it is given. -/
theorem readArgs_spelled (switch : Switch) {long short value : String} {letter : Char}
    {options : List String}
    (hlong : long.toList = '-' :: '-' :: switch.long.toList) (hshort : short.toList = ['-', letter])
    (hletter : switch.letter? = some letter) (hvalue : switch.takesValue = true)
    (hknown : switch.knownAt verb = true) (h : Spells long short value options) :
    readArgs verb given none (options ++ rest) =
      given.assign value switch >>= fun given => readArgs verb given none rest := by
  obtain ⟨hapart, hattached⟩ := @readLong_of_takesValue verb given switch hvalue hknown
  have hname : switch.long.toList ≠ [] := by
    cases switch <;> exact List.cons_ne_nil _ _
  cases h with
  | apart plain =>
      rw [List.cons_append, readArgs_long hlong hname, hapart]
      exact readArgs_plain plain (some switch)
  | short plain =>
      obtain ⟨hne, hread⟩ :=
        @readLetters_of_takesValue verb given switch letter hletter hvalue hknown
      rw [List.cons_append, readArgs_letter hshort hne, hread]
      exact readArgs_plain plain (some switch)
  | attached nonempty =>
      have hword : (long ++ "=" ++ value).toList =
          '-' :: '-' :: (switch.long.toList ++ '=' :: value.toList) := by
        rw [String.toList_append, String.toList_append, hlong, List.append_assoc]
        rfl
      rw [List.singleton_append, readArgs_long hword (List.append_ne_nil_of_left_ne_nil hname _),
        hattached, String.ofList_toList]
      cases given.assign value switch <;> rfl

end Switch

/-- The settings are kept, whatever else has been given. -/
theorem readArgs_config {path : String} {options : List String}
    (h : Spells "--config" "-c" path options) (hfree : given.config = none) :
    readArgs verb given none (options ++ rest) =
      readArgs verb { given with config := some path } none rest := by
  have hassign : given.assign path .config = .ok { given with config := some path } := by
    rw [Given.assign, hfree, fill_none h.ne_empty]
    rfl
  rw [readArgs_spelled .config rfl rfl rfl rfl rfl h, hassign]
  rfl

theorem readArgs_agent {path : String} {options : List String}
    (h : Spells "--agent" "-a" path options) (hfree : given.agent = none) :
    readArgs (some .run) given none (options ++ rest) =
      readArgs (some .run) { given with agent := some path } none rest := by
  have hassign : given.assign path .agent = .ok { given with agent := some path } := by
    rw [Given.assign, hfree, fill_none h.ne_empty]
    rfl
  rw [readArgs_spelled .agent rfl rfl rfl rfl rfl h, hassign]
  rfl

/-- The decimal text of every number of ticks is read as that number. -/
theorem readArgs_ticks {n : UInt64} {options : List String}
    (h : Spells "--ticks" "-t" (toString n.toNat) options) (hfree : given.ticks = none) :
    readArgs (some .run) given none (options ++ rest) =
      readArgs (some .run) { given with ticks := some n } none rest := by
  have hlt := n.toNat_lt
  have hread : Text.readInteger .uint64 (toString (n.toNat : Int)) = .ok n.toNat :=
    Text.readInteger_toString (by decide) (Int.natCast_nonneg _)
      (by show (n.toNat : Int) ≤ 0xffffffffffffffff; omega)
  have hassign : given.assign (toString n.toNat) .ticks = .ok { given with ticks := some n } := by
    rw [Given.assign, hfree, show toString n.toNat = toString (n.toNat : Int) from rfl, hread]
    simp
  rw [readArgs_spelled .ticks rfl rfl rfl rfl rfl h, hassign]
  rfl

/-- Arguments that give the settings leave nothing else behind. -/
theorem readArgs_settings {settings : Option String} {options : List String}
    (h : GivesSettings settings options) (hfree : given.config = none) :
    readArgs verb given none (options ++ rest) =
      readArgs verb { given with config := settings } none rest := by
  cases h with
  | none => rw [List.nil_append, ← hfree]
  | some spelled => exact readArgs_config spelled hfree

/-! ## Commands -/

/-- A command is read from what is given after its name, and the settings from what is given there
or before it. -/
theorem read_named {named : Verb} {settings : Option String} {options : List String}
    {after : Given} {asked : Command} (hgives : GivesSettings settings options)
    (hplain : IsPlain word) (hverb : verb? word = some named)
    (hrest : readArgs (some named) {} none rest = .ok (after, none))
    (hasked : command after named = .ok asked) :
    read (options ++ word :: rest) = .ok ⟨after.config <|> settings, asked⟩ := by
  have hword : readArgs none { config := settings } none (word :: rest) =
      .ok ({ config := settings }, some (named, rest)) := by
    rw [readArgs_plain hplain]
    dsimp only
    rw [hverb]
  unfold read
  rw [readArgs_settings hgives rfl, hword]
  show (readArgs (some named) {} none rest >>= fun read => do
    return (⟨read.1.config <|> settings, ← command read.1 named⟩ : Request)) = _
  rw [hrest]
  show (do return (⟨after.config <|> settings, ← command after named⟩ : Request)) = _
  rw [hasked]
  rfl

/-- A command is read from its words, wherever the settings are given. -/
theorem read_of_asks {named : Verb} {tail args : List String} {settings : Option String}
    {asked : Command} (after : Option String → Given) (hplain : IsPlain word)
    (hverb : verb? word = some named)
    (htail : ∀ settings before options rest, tail = before ++ rest →
      GivesSettings settings options →
        readArgs (some named) {} none (before ++ options ++ rest) = .ok (after settings, none))
    (hsettings : ∀ settings, (after settings).config = settings)
    (hasked : ∀ settings, command (after settings) named = .ok asked)
    (h : Asks settings (word :: tail) args) : read args = .ok ⟨settings, asked⟩ := by
  obtain ⟨before, options, rest, hwords, hgives, rfl⟩ := h
  cases before with
  | nil =>
      -- The settings are given before the name of the command, and not after it.
      obtain rfl : word :: tail = rest := hwords
      have hread := read_named hgives hplain hverb (htail none [] [] tail rfl .none) (hasked none)
      rw [hsettings] at hread
      exact hread
  | cons first before =>
      obtain ⟨rfl, rfl⟩ := List.cons.inj hwords
      have hread := read_named .none hplain hverb (htail settings before options rest rfl hgives)
        (hasked settings)
      rw [hsettings] at hread
      rw [List.cons_append, List.cons_append]
      cases settings <;> exact hread

end Args

section Asks

variable {tree : String} {settings : Option String} {args : List String}

/-- The tree alone, with the settings before it or after it. -/
theorem readArgs_tree_only (named : Verb) (htree : IsPlain tree) {before options rest : List String}
    (hsplit : [tree] = before ++ rest) (hgives : GivesSettings settings options) :
    readArgs (some named) {} none (before ++ options ++ rest) =
      .ok ({ config := settings, tree := some tree }, none) := by
  cases before with
  | nil =>
      obtain rfl : [tree] = rest := hsplit
      rw [List.nil_append, readArgs_settings hgives rfl, readArgs_tree htree rfl]
      rfl
  | cons first before =>
      obtain ⟨rfl, hnil⟩ := List.cons.inj hsplit
      obtain ⟨rfl, rfl⟩ := List.append_eq_nil_iff.1 hnil.symm
      rw [List.cons_append, List.nil_append, List.cons_append, readArgs_tree htree rfl,
        readArgs_settings hgives rfl]
      rfl

theorem read_check (htree : IsPlain tree) (h : Asks settings ["check", tree] args) :
    read args = .ok ⟨settings, .check tree⟩ :=
  read_of_asks (fun settings => { config := settings, tree := some tree }) (by decide) rfl
    (fun _ _ _ _ hsplit hgives => readArgs_tree_only .check htree hsplit hgives)
    (fun _ => rfl) (fun _ => rfl) h

theorem read_dump (htree : IsPlain tree) (h : Asks settings ["dump", tree] args) :
    read args = .ok ⟨settings, .dump tree false⟩ :=
  read_of_asks (fun settings => { config := settings, tree := some tree }) (by decide) rfl
    (fun _ _ _ _ hsplit hgives => readArgs_tree_only .dump htree hsplit hgives)
    (fun _ => rfl) (fun _ => rfl) h

theorem read_dump_json (htree : IsPlain tree) (h : Asks settings ["dump", tree, "--json"] args) :
    read args = .ok ⟨settings, .dump tree true⟩ := by
  refine read_of_asks (fun settings => { config := settings, tree := some tree, json := true })
    (by decide) rfl ?_ (fun _ => rfl) (fun _ => rfl) h
  intro settings before options rest hsplit hgives
  cases before with
  | nil =>
      obtain rfl : [tree, "--json"] = rest := hsplit
      rw [List.nil_append, readArgs_settings hgives rfl, readArgs_tree htree rfl,
        readArgs_json rfl]
      rfl
  | cons first before =>
      obtain ⟨rfl, htail⟩ := List.cons.inj hsplit
      rw [List.cons_append, List.cons_append, readArgs_tree htree rfl]
      cases before with
      | nil =>
          obtain rfl : ["--json"] = rest := htail
          rw [List.nil_append, readArgs_settings hgives rfl, readArgs_json rfl]
          rfl
      | cons second before =>
          obtain ⟨rfl, hnil⟩ := List.cons.inj htail
          obtain ⟨rfl, rfl⟩ := List.append_eq_nil_iff.1 hnil.symm
          rw [List.cons_append, List.nil_append, List.cons_append, readArgs_json rfl,
            readArgs_settings hgives rfl]
          rfl

end Asks

section Run

variable {settings tree script : Option String} {ticks : Option UInt64} {args : List String}

/-- What is given for a run is what is known after it has been read. -/
theorem readArgs_givesRun (h : GivesRun settings tree script ticks args) (rest : List String) :
    readArgs (some .run) {} none (args ++ rest) = readArgs (some .run)
      { config := settings, tree := tree, agent := script, ticks := ticks } none rest := by
  induction h generalizing rest with
  | nothing => rfl
  | settings others spelled ih => rw [List.append_assoc, ih, readArgs_config spelled rfl]
  | tree others plain ih =>
      rw [List.append_assoc, ih, List.singleton_append, readArgs_tree plain rfl]
  | script others spelled ih => rw [List.append_assoc, ih, readArgs_agent spelled rfl]
  | ticks others spelled ih => rw [List.append_assoc, ih, readArgs_ticks spelled rfl]

/-- A run is read from what is given for it, in whatever order. -/
theorem read_run {tree script : String} {ticks : UInt64}
    (h : AsksRun settings tree script ticks args) :
    read args = .ok ⟨settings, .run tree script ticks⟩ := by
  have hplain : IsPlain "run" := by decide
  have hrest : ∀ {settings : Option String} {ticks : Option UInt64} {rest : List String},
      GivesRun settings (some tree) (some script) ticks rest → readArgs (some .run) {} none rest =
        .ok ({ config := settings, tree := some tree, agent := some script, ticks := ticks },
          none) := by
    intro settings ticks rest hgives
    rw [← List.append_nil rest, readArgs_givesRun hgives]
    rfl
  cases h with
  | settingsBefore first second => exact read_named first hplain rfl (hrest second) rfl
  | settingsAfter all =>
      have hread := read_named .none hplain rfl (hrest all) rfl
      cases settings <;> exact hread

end Run

end BehaviorTree.CommandLine
