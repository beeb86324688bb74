/-! # Decimal integers in a range

An integer is written as an optional sign and ASCII digits. Its digits are taken from left to right,
and reading stops at the first problem: a character that is no digit, or a value that has left the
range. A minus sign is a sign only where the range has negative numbers. -/

namespace BehaviorTree.Text

/-- The integers that a word of some width can hold. -/
structure IntegerRange where
  least : Int
  greatest : Int

def IntegerRange.int64 : IntegerRange := ⟨-0x8000000000000000, 0x7fffffffffffffff⟩

def IntegerRange.uint32 : IntegerRange := ⟨0, 0xffffffff⟩

def IntegerRange.uint64 : IntegerRange := ⟨0, 0xffffffffffffffff⟩

/-- Why a text is not an integer of a range. -/
inductive IntegerFault where
  | empty
  | invalidDigit
  | tooLarge
  | tooSmall
  deriving DecidableEq

def IntegerFault.message : IntegerFault → String
  | .empty => "cannot parse integer from empty string"
  | .invalidDigit => "invalid digit found in string"
  | .tooLarge => "number too large to fit in target type"
  | .tooSmall => "number too small to fit in target type"

def digitValue (c : Char) : Nat := c.toNat - '0'.toNat

/-- Extends the value `acc` by digits, upwards within the range. -/
def readUp (greatest : Int) (acc : Int) : List Char → Except IntegerFault Int
  | [] => .ok acc
  | c :: rest =>
      if c.isDigit then
        let next := acc * 10 + digitValue c
        if next ≤ greatest then readUp greatest next rest else .error .tooLarge
      else .error .invalidDigit

/-- Extends the value `acc` by digits, downwards within the range. -/
def readDown (least : Int) (acc : Int) : List Char → Except IntegerFault Int
  | [] => .ok acc
  | c :: rest =>
      if c.isDigit then
        let next := acc * 10 - digitValue c
        if least ≤ next then readDown least next rest else .error .tooSmall
      else .error .invalidDigit

/-- The integer of `range` that the characters spell. -/
def readIntegerChars (range : IntegerRange) : List Char → Except IntegerFault Int
  | [] => .error .empty
  | ['+'] => .error .invalidDigit
  | ['-'] => .error .invalidDigit
  | '+' :: digits => readUp range.greatest 0 digits
  | '-' :: digits =>
      if range.least < 0 then readDown range.least 0 digits else .error .invalidDigit
  | digits => readUp range.greatest 0 digits

/-- The integer of `range` that `s` spells, nothing around it. -/
def readInteger (range : IntegerRange) (s : String) : Except IntegerFault Int :=
  readIntegerChars range s.toList

end BehaviorTree.Text
