import BehaviorTree.Binary64.Basic

/-! # The fewest digits that read back

A finite word is the nearest word to every number of an interval around it. Its shortest decimal is
the first one found in that interval on the grids of powers of ten, from the coarsest to finer ones:
on each grid only the two neighbours of the word's value need a look, and of two that lie in the
interval the nearer one is taken. -/

namespace BehaviorTree.Binary64

/-- Where a decimal goes that lies halfway between two neighbours on a grid. -/
inductive Tie where
  | up
  | even
  deriving DecidableEq

/-- The number `digits · 10 ^ exponent`. -/
structure Decimal where
  digits : Nat
  exponent : Int
  deriving DecidableEq

/-- The numbers between `low / unit` and `high / unit`, which round to `middle / unit`; the ends
belong to them when `closed`. -/
structure Interval where
  low : Nat
  middle : Nat
  high : Nat
  unit : Nat
  closed : Bool

/-- The numbers that round to `mantissa · 2 ^ exponent`. Below a power of two the next word is only
half as far away as above it. -/
def Interval.around (mantissa : Nat) (exponent : Int) : Interval :=
  let scale := Nat.pow 2 (exponent - 2).toNat
  let narrow := mantissa = Nat.pow 2 52 ∧ -1074 < exponent
  { low := (4 * mantissa - if narrow then 1 else 2) * scale
    middle := 4 * mantissa * scale
    high := (4 * mantissa + 2) * scale
    unit := Nat.pow 2 (2 - exponent).toNat
    closed := mantissa % 2 = 0 }

/-- The multiple of `10 ^ p` in the interval that is nearest to its middle, if one is in it. -/
def Interval.onGrid? (i : Interval) (tie : Tie) (p : Int) : Option Nat :=
  let up := Nat.pow 10 (-p).toNat
  let step := i.unit * Nat.pow 10 p.toNat
  let below := i.middle * up / step
  let holds (k : Nat) : Bool :=
    if i.closed then i.low * up ≤ k * step && k * step ≤ i.high * up
    else i.low * up < k * step && k * step < i.high * up
  match holds below, holds (below + 1) with
  | false, false => none
  | true, false => some below
  | false, true => some (below + 1)
  | true, true =>
      let rest := 2 * (i.middle * up - below * step)
      if rest < step then some below
      else if step < rest then some (below + 1)
      else match tie with
        | .up => some (below + 1)
        | .even => some (below + below % 2)

/-- Searches `fuel` grids from `10 ^ p` downwards, and cuts the middle at the last one when none of
them has a point in the interval. -/
def Interval.search (i : Interval) (tie : Tie) : (fuel : Nat) → (p : Int) → Decimal
  | 0, p => ⟨i.middle * Nat.pow 10 (-p).toNat / (i.unit * Nat.pow 10 p.toNat), p⟩
  | fuel + 1, p =>
      match i.onGrid? tie p with
      | some k => ⟨k, p⟩
      | none => i.search tie fuel (p - 1)

/-- The shortest decimal of `mantissa · 2 ^ exponent`, for a positive mantissa. The search starts on
a grid that is coarser than the number, and seventeen digits always suffice. -/
def shortest (tie : Tie) (mantissa : Nat) (exponent : Int) : Decimal :=
  let top : Int := mantissa.log2 + exponent + 1
  let start := (if 0 ≤ top then top * 31 / 100 else top * 30 / 100) + 1
  (Interval.around mantissa exponent).search tie 40 start

end BehaviorTree.Binary64
