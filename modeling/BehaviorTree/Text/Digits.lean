/-! # Digits

Numbers without a sign, in a base up to 16. Letters of either case stand for ten and more. -/

namespace BehaviorTree.Text

/-- What a digit or one of the letters up to `f` stands for. -/
def digitOrLetter? (c : Char) : Option Nat :=
  if c.isDigit then some (c.toNat - '0'.toNat)
  else if 'a' ≤ c.toLower ∧ c.toLower ≤ 'f' then some (c.toLower.toNat - 'a'.toNat + 10)
  else none

/-- The value of a digit in a base. -/
def digit? (base : Nat) (c : Char) : Option Nat := (digitOrLetter? c).filter (· < base)

/-- The number that digits spell in a base; there is at least one of them. -/
def number? (base : Nat) (digits : List Char) : Option Nat :=
  if digits = [] then none
  else digits.foldlM (fun n c => (digit? base c).map (n * base + ·)) 0

end BehaviorTree.Text
