import BehaviorTree.Text.Unprintable

/-! # Quoted text

A text that is shown inside a message or an outline stands between double quotes. The quote, the
backslash, the three usual layout characters and the null character have two-character escapes;
other characters that are not shown are spelled by their code point. A quoted text therefore never
holds a line break. -/

namespace BehaviorTree.Text

/-- The hexadecimal digits of `n`, in lower case and without leading zeros. -/
def hexDigits (n : Nat) : List Char := Nat.toDigits 16 n

/-- The characters that a backslash and one more character spell. -/
def escapes : List (Char × Char) :=
  [('"', '"'), ('\\', '\\'), ('\n', 'n'), ('\r', 'r'), ('\t', 't'), ('\x00', '0')]

/-- How a quoted text spells `c`. -/
def quoteChar (c : Char) : List Char :=
  match escapes.lookup c with
  | some mark => ['\\', mark]
  | none =>
      if isUnprintable c then ['\\', 'u', '\x7b'] ++ hexDigits c.toNat ++ ['\x7d'] else [c]

/-- `s` between double quotes, on one line. -/
def quoted (s : String) : String :=
  String.ofList ('"' :: s.toList.flatMap quoteChar ++ ['"'])

theorem toList_quoted (s : String) :
    (quoted s).toList = '"' :: s.toList.flatMap quoteChar ++ ['"'] := by
  simp [quoted]

/-- No spelling of a character holds a line feed. -/
theorem lineFeed_not_mem_quoteChar (c : Char) : '\n' ∉ quoteChar c := by
  have hhex : '\n' ∉ hexDigits c.toNat := by
    intro h
    have hall : ∀ (fuel n : Nat) (acc : List Char), '\n' ∈ Nat.toDigitsCore 16 fuel n acc →
        '\n' ∈ acc := by
      intro fuel
      induction fuel with
      | zero => intro n acc h; simpa [Nat.toDigitsCore] using h
      | succ fuel ih =>
          intro n acc h
          have hdigit : ∀ d < 16, '\n' ≠ Nat.digitChar d := by decide
          have hne := hdigit (n % 16) (Nat.mod_lt _ (by decide))
          rw [Nat.toDigitsCore] at h
          split at h
          · simpa [hne] using h
          · simpa [hne] using ih _ _ h
    simpa using hall _ _ _ h
  unfold quoteChar
  split
  · rename_i mark hmark
    obtain ⟨before, after, heq, -⟩ := List.lookup_eq_some_iff.1 hmark
    have hmarks : ∀ escape ∈ escapes, escape.2 ≠ '\n' := by decide
    have hne := hmarks (c, mark) (by simp [heq])
    simp [hne.symm]
  · rename_i hplain
    have hne : '\n' ≠ c := by
      rintro rfl
      exact absurd hplain (by decide)
    split
    · simp [hhex]
    · simpa using hne

/-- A quoted text stays on one line. -/
theorem lineFeed_not_mem_quoted (s : String) : '\n' ∉ (quoted s).toList := by
  simp [toList_quoted, lineFeed_not_mem_quoteChar]

end BehaviorTree.Text
