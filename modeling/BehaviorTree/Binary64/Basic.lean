/-! # Floating-point numbers of 64 bits

A `Binary64` is a word in the binary64 format: a sign, eleven bits of exponent and 52 bits of
fraction. Arithmetic on it is done in exact integers: a finite word stands for a mantissa times a
power of two, and a quotient of integers is rounded to the nearest word, a half going to the even
neighbour. -/

namespace BehaviorTree

/-- A word in the binary64 format. -/
structure Binary64 where
  bits : UInt64
  deriving DecidableEq

namespace Binary64

/-- What a word stands for. A finite word is `mantissa · 2 ^ exponent`. -/
inductive Reading where
  | nan
  | infinite (negative : Bool)
  | finite (negative : Bool) (mantissa : Nat) (exponent : Int)
  deriving DecidableEq

def negative (x : Binary64) : Bool := x.bits.toNat / Nat.pow 2 63 == 1

/-- The word without its sign bit; it grows with the absolute value. -/
def magnitude (x : Binary64) : Nat := x.bits.toNat % Nat.pow 2 63

/-- The magnitude of the two infinities; what is above it is not a number. -/
def infiniteMagnitude : Nat := 2047 * Nat.pow 2 52

def ofMagnitude (negative : Bool) (magnitude : Nat) : Binary64 :=
  ⟨UInt64.ofNat ((if negative then Nat.pow 2 63 else 0) + magnitude)⟩

def reading (x : Binary64) : Reading :=
  if infiniteMagnitude < x.magnitude then .nan
  else if x.magnitude = infiniteMagnitude then .infinite x.negative
  else if x.magnitude < Nat.pow 2 52 then .finite x.negative x.magnitude (-1074)
  else
    .finite x.negative (x.magnitude % Nat.pow 2 52 + Nat.pow 2 52)
      (x.magnitude / Nat.pow 2 52 - 1075)

def isNaN (x : Binary64) : Bool := infiniteMagnitude < x.magnitude

def isFinite (x : Binary64) : Bool := x.magnitude < infiniteMagnitude

def nan : Binary64 := ofMagnitude false (infiniteMagnitude + Nat.pow 2 51)

def infinity (negative : Bool) : Binary64 := ofMagnitude negative infiniteMagnitude

def zero (negative : Bool) : Binary64 := ofMagnitude negative 0

/-- The place of a number on the line; a word that is not a number has none, and both zeros have
the same. -/
def place? (x : Binary64) : Option Int :=
  if x.isNaN then none else some (if x.negative then -x.magnitude else x.magnitude)

/-- Numerical equality: both are numbers and stand at the same place. -/
def agrees (x y : Binary64) : Bool :=
  match x.place?, y.place? with
  | some a, some b => a == b
  | _, _ => false

/-- The integer nearest to `num / den`; a half goes to the even neighbour. -/
def roundHalfEven (num den : Nat) : Nat :=
  let below := num / den
  let rest := 2 * (num % den)
  if rest < den then below
  else if den < rest then below + 1
  else below + below % 2

/-- The magnitude nearest to `num / den`, both positive. The exponent is chosen so that the mantissa
has 53 bits, or is the least one; a mantissa that rounds up to 54 bits carries into the exponent. -/
def roundRatio (num den : Nat) : Nat :=
  let scaled (e : Int) : Nat × Nat := (num * Nat.pow 2 (-e).toNat, den * Nat.pow 2 e.toNat)
  let guess : Int := num.log2 - den.log2 - 53
  let wide := (scaled guess).2 * Nat.pow 2 53 ≤ (scaled guess).1
  let e := max (if wide then guess + 1 else guess) (-1074)
  let m := roundHalfEven (scaled e).1 (scaled e).2
  min ((e + 1074).toNat * Nat.pow 2 52 + m) infiniteMagnitude

/-- The word nearest to `num / den`. -/
def ofRatio (negative : Bool) (num den : Nat) : Binary64 :=
  ofMagnitude negative (if num = 0 then 0 else roundRatio num den)

def ofInt (n : Int) : Binary64 := ofRatio (n < 0) n.natAbs 1

/-- The word nearest to `digits · 10 ^ exponent`. What lies far outside the range is settled before
any power of ten is formed. -/
def ofScientific (negative : Bool) (digits : Nat) (exponent : Int) : Binary64 :=
  let top := (Nat.toDigits 10 digits).length + exponent
  if digits = 0 ∨ top < -330 then zero negative
  else if 310 < top then infinity negative
  else ofRatio negative (digits * Nat.pow 10 exponent.toNat) (Nat.pow 10 (-exponent).toNat)

end Binary64

end BehaviorTree
