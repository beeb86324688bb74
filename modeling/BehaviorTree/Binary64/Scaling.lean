import BehaviorTree.Binary64.Basic

/-! # Scaling by powers of ten

A finite word is multiplied or divided by the word nearest to a power of ten, and the result is
rounded again. This is not the same as reading a decimal: every step rounds on its own, so that the
result may lie beside the nearest word. -/

namespace BehaviorTree.Binary64

/-- The word nearest to `num / den · 2 ^ exponent`. -/
def ofScaledRatio (negative : Bool) (num den : Nat) (exponent : Int) : Binary64 :=
  ofRatio negative (num * Nat.pow 2 exponent.toNat) (den * Nat.pow 2 (-exponent).toNat)

/-- The word nearest to the product of two finite words; other words have no product here. -/
def product (x y : Binary64) : Binary64 :=
  match x.reading, y.reading with
  | .finite a m p, .finite b n q => ofScaledRatio (a != b) (m * n) 1 (p + q)
  | _, _ => nan

/-- The word nearest to the quotient of two finite words, the second one not being zero; other words
have no quotient here. -/
def quotient (x y : Binary64) : Binary64 :=
  match x.reading, y.reading with
  | .finite a m p, .finite b n q => if n = 0 then nan else ofScaledRatio (a != b) m n (p - q)
  | _, _ => nan

def powerOfTen (exponent : Nat) : Binary64 := ofScientific false 1 exponent

/-- The largest exponent of a power of ten that is finite. -/
def topExponent : Nat := 308

/-- Scales `x` by `10 ^ exponent`. Small powers are reached by several divisions, of which at most
`fuel` are made. A result that is not finite is none. -/
def scaleByTen? : (fuel : Nat) → Binary64 → (exponent : Int) → Option Binary64
  | fuel, x, exponent =>
      if x.magnitude = 0 then some x
      else if (topExponent : Int) < exponent then none
      else if 0 ≤ exponent then (some (x.product (powerOfTen exponent.toNat))).filter isFinite
      else if -(topExponent : Int) ≤ exponent then some (x.quotient (powerOfTen (-exponent).toNat))
      else match fuel with
        | 0 => some x
        | fuel + 1 =>
            scaleByTen? fuel (x.quotient (powerOfTen topExponent)) (exponent + topExponent)

/-- The word that `significand · 10 ^ exponent` is read as, if it is finite: the significand is
rounded, and then scaled. A significand of 64 bits is zero after two divisions by the largest power,
so the third one is never made. -/
def ofSignificand? (significand : Nat) (exponent : Int) : Option Binary64 :=
  scaleByTen? 3 (ofInt significand) exponent

end BehaviorTree.Binary64
