/-! # Blank space around a text

A character is blank when it has the Unicode property White_Space. Numbers are read after the blanks
at both ends of their text are dropped; blanks inside are kept. -/

namespace BehaviorTree.Text

/-- Whether `c` has the Unicode property White_Space. -/
def isBlank (c : Char) : Bool :=
  let n := c.toNat
  (0x9 ≤ n && n ≤ 0xD) || n == 0x20 || n == 0x85 || n == 0xA0 || n == 0x1680 ||
    (0x2000 ≤ n && n ≤ 0x200A) || n == 0x2028 || n == 0x2029 || n == 0x202F || n == 0x205F ||
    n == 0x3000

/-- `s` without the blanks at its end. -/
def dropBlankEnd (s : List Char) : List Char :=
  (s.reverse.dropWhile isBlank).reverse

/-- `s` without the blanks at both ends. -/
def trimChars (s : List Char) : List Char :=
  dropBlankEnd (s.dropWhile isBlank)

def trim (s : String) : String :=
  String.ofList (trimChars s.toList)

theorem toList_trim (s : String) : (trim s).toList = trimChars s.toList := by
  simp [trim]

/-- Blanks around a text that neither starts nor ends with one are all that trimming drops. -/
theorem trimChars_append {left right : List Char} (text : List Char)
    (hleft : ∀ c ∈ left, isBlank c = true) (hright : ∀ c ∈ right, isBlank c = true)
    (hfirst : ∀ c ∈ text.head?, isBlank c = false)
    (hlast : ∀ c ∈ text.getLast?, isBlank c = false) :
    trimChars (left ++ text ++ right) = text := by
  have hdrop (a b : List Char) (ha : ∀ c ∈ a, isBlank c = true) :
      (a ++ b).dropWhile isBlank = b.dropWhile isBlank := by
    induction a with
    | nil => rfl
    | cons c a ih =>
        rw [List.cons_append, List.dropWhile_cons_of_pos (ha c List.mem_cons_self)]
        exact ih fun d hd => ha d (List.mem_cons_of_mem _ hd)
  have hkeep (b : List Char) (hb : ∀ c ∈ b.head?, isBlank c = false) :
      b.dropWhile isBlank = b := by
    cases b with
    | nil => rfl
    | cons c b => exact List.dropWhile_cons_of_neg (by rw [hb c rfl]; decide)
  have hright' : ∀ c ∈ right.reverse, isBlank c = true := fun c hc =>
    hright c (List.mem_reverse.1 hc)
  rw [trimChars, List.append_assoc, hdrop left _ hleft]
  cases text with
  | nil =>
      have hnone : right.dropWhile isBlank = [] := by
        have h := hdrop right [] hright
        rwa [List.append_nil] at h
      rw [List.nil_append, hnone]
      rfl
  | cons c text =>
      rw [hkeep (c :: text ++ right) (fun d hd => hfirst d hd), dropBlankEnd,
        List.reverse_append, hdrop _ _ hright',
        hkeep _ (by rw [List.head?_reverse]; exact hlast), List.reverse_reverse]

end BehaviorTree.Text
