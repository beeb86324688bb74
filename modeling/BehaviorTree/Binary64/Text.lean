import BehaviorTree.Binary64.Shortest

/-! # Floating-point numbers as text

Both ways between words and decimal texts. A text is read to the nearest word, whatever its length.
Two styles of writing share the shortest digits: the plain one never has an exponent and writes
whole numbers without a point, the scientific one always has a point or an exponent and takes the
exponent when the first digit is far from the point. -/

namespace BehaviorTree.Binary64

/-- Why a text is not a floating-point number. -/
inductive ReadFault where
  | empty
  | invalid
  deriving DecidableEq

def ReadFault.message : ReadFault → String
  | .empty => "cannot parse float from empty string"
  | .invalid => "invalid float literal"

/-- Splits a sign off a text; `true` stands for minus. -/
def splitSign : List Char → Bool × List Char
  | '-' :: rest => (true, rest)
  | '+' :: rest => (false, rest)
  | text => (false, text)

/-- The exponent that a text spells after its mark: nothing, or a mark, a sign and digits. -/
def readExponent : List Char → Option Int
  | [] => some 0
  | mark :: rest =>
      let (minus, digits) := splitSign rest
      if (mark = 'e' ∨ mark = 'E') ∧ digits ≠ [] ∧ digits.all Char.isDigit then
        let n : Int := Nat.ofDigitChars 10 digits 0
        some (if minus then -n else n)
      else none

/-- The number that an unsigned text of digits, point and exponent spells. At least one digit stands
before or after the point. -/
def readDecimal (negative : Bool) (text : List Char) : Option Binary64 := do
  let (whole, rest) := text.span Char.isDigit
  let (fraction, rest) := match rest with
    | '.' :: rest => rest.span Char.isDigit
    | rest => ([], rest)
  if whole ++ fraction = [] then none
  else do
    let exponent ← readExponent rest
    return ofScientific negative (Nat.ofDigitChars 10 (whole ++ fraction) 0)
      (exponent - fraction.length)

/-- The number that `s` spells, nothing around it. -/
def read (s : String) : Except ReadFault Binary64 :=
  if s.isEmpty then .error .empty
  else
    let (negative, text) := splitSign s.toList
    match String.ofList (text.map Char.toLower) with
    | "inf" | "infinity" => .ok (infinity negative)
    | "nan" => .ok nan
    | _ => match readDecimal negative text with
      | some x => .ok x
      | none => .error .invalid

/-- The digits of `d` around a point: what stands before it, and what stands after it. -/
def Decimal.split (d : Decimal) : List Char × List Char :=
  let digits := Nat.toDigits 10 d.digits
  let before := digits.length + d.exponent
  if 0 ≤ d.exponent then (digits ++ List.replicate d.exponent.toNat '0', [])
  else if 0 < before then digits.splitAt before.toNat
  else (['0'], List.replicate (-before).toNat '0' ++ digits)

/-- The plain text of a decimal: no exponent, and no point in a whole number. -/
def Decimal.plain (d : Decimal) : List Char :=
  match d.split with
  | (whole, []) => whole
  | (whole, fraction) => whole ++ '.' :: fraction

/-- The exponent of the first digit of `d`. -/
def Decimal.leading (d : Decimal) : Int :=
  (Nat.toDigits 10 d.digits).length + d.exponent - 1

/-- The scientific text of a decimal. A point without exponent serves as long as the first digit
stands from 5 places after it to 16 places before it. -/
def Decimal.scientific (d : Decimal) : List Char :=
  if -5 ≤ d.leading ∧ d.leading ≤ 15 then
    match d.split with
    | (whole, []) => whole ++ ['.', '0']
    | (whole, fraction) => whole ++ '.' :: fraction
  else
    let mantissa := match Nat.toDigits 10 d.digits with
      | first :: next :: rest => first :: '.' :: next :: rest
      | digits => digits
    let sign := if d.leading < 0 then '-' else '+'
    mantissa ++ 'e' :: sign :: Nat.toDigits 10 d.leading.natAbs

/-- Writes a word by `write`, which is given the shortest decimal. -/
def textWith (tie : Tie) (write : Decimal → List Char) (x : Binary64) : String :=
  let signed (negative : Bool) (text : List Char) : String :=
    String.ofList (if negative then '-' :: text else text)
  match x.reading with
  | .nan => "NaN"
  | .infinite negative => signed negative ['i', 'n', 'f']
  | .finite negative 0 _ => signed negative (write ⟨0, 0⟩)
  | .finite negative m e => signed negative (write (shortest tie m e))

/-- The text of a word in messages and outlines. -/
def plainText (x : Binary64) : String := x.textWith .up Decimal.plain

/-- The text of a finite word in JSON. -/
def scientificText (x : Binary64) : String := x.textWith .even Decimal.scientific

end BehaviorTree.Binary64
