/-! # Characters of documents

Which characters a document may hold, which ones are space in it, and which ones make names. -/

namespace BehaviorTree.Markup

/-- Whether a document may hold `c`. -/
def isAllowed (c : Char) : Bool :=
  let n := c.toNat
  if n < 0x20 then c == '\t' || c == '\n' || c == '\r' else n != 0xFFFE && n != 0xFFFF

def isSpace (c : Char) : Bool := c == ' ' || c == '\t' || c == '\n' || c == '\r'

/-- Characters outside ASCII that can start a name, as closed ranges of code points. -/
def nameStartRanges : List (Nat × Nat) := [
  (0xC0, 0xD6), (0xD8, 0xF6), (0xF8, 0x2FF), (0x370, 0x37D), (0x37F, 0x1FFF), (0x200C, 0x200D),
  (0x2070, 0x218F), (0x2C00, 0x2FEF), (0x3001, 0xD7FF), (0xF900, 0xFDCF), (0xFDF0, 0xFFFD),
  (0x10000, 0xEFFFF)]

/-- Characters outside ASCII that can only continue a name. -/
def nameRestRanges : List (Nat × Nat) := [(0xB7, 0xB7), (0x300, 0x36F), (0x203F, 0x2040)]

/-- Whether the code point of `c` lies in one of the ranges. -/
def within (ranges : List (Nat × Nat)) (c : Char) : Bool :=
  ranges.any fun (first, last) => first ≤ c.toNat && c.toNat ≤ last

def isNameStart (c : Char) : Bool :=
  c.isAlpha || c == ':' || c == '_' || within nameStartRanges c

def isNameChar (c : Char) : Bool :=
  isNameStart c || c.isDigit || c == '-' || c == '.' || within nameRestRanges c

end BehaviorTree.Markup
