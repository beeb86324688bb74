import BehaviorTree.Binary64.Text
import BehaviorTree.Text.Digits
import BehaviorTree.Yaml.Reader

/-! # What scalars mean

A plain scalar in the spelling of nothing, of a truth value or of a number is that and not a text. A
quoted scalar is always a text. Integers are held in 64 bits. Those that need more, but no more than
128 bits, are `wide`, and nothing holds them; what is larger still is a floating-point number or a
text, whichever its spelling allows. -/

namespace BehaviorTree.Yaml

/-- What a scalar means. -/
inductive Meaning where
  | null
  | bool (b : Bool)
  | natural (n : Nat)
  | negative (n : Int)
  | wide
  | float
  | text (text : String)
  deriving DecidableEq

/-- Whether a text is digits alone, the first of several being a zero. -/
def isPadded (text : List Char) : Bool :=
  match text with
  | '0' :: c :: rest => (c :: rest).all Char.isDigit
  | _ => false

/-- The value of an unsigned integer: hexadecimal, octal or binary after its mark, else decimal. -/
def magnitude? : List Char → Option Nat
  | '0' :: 'x' :: digits => Text.number? 16 digits
  | '0' :: 'o' :: digits => Text.number? 8 digits
  | '0' :: 'b' :: digits => Text.number? 2 digits
  | digits => if isPadded digits then none else Text.number? 10 digits

/-- The meaning of a natural number, if it is not too large for an integer. -/
def Meaning.ofNat? (n : Nat) : Option Meaning :=
  if n < Nat.pow 2 64 then some (.natural n)
  else if n < Nat.pow 2 128 then some .wide
  else none

/-- The meaning of a natural number behind a minus sign, if it is not too large for an integer. -/
def Meaning.ofNegated? (n : Nat) : Option Meaning :=
  if n ≤ Nat.pow 2 63 then some (.negative (-n))
  else if n ≤ Nat.pow 2 127 then some .wide
  else none

def integer? (text : List Char) : Option Meaning :=
  match text with
  | '-' :: digits => (magnitude? digits).bind Meaning.ofNegated?
  | '+' :: digits => (magnitude? digits).bind Meaning.ofNat?
  | digits => (magnitude? digits).bind Meaning.ofNat?

def isFloat (text : List Char) : Bool :=
  let (_, unsigned) := Binary64.splitSign text
  let special := ["inf", "Inf", "INF"].any fun s => '.' :: s.toList == unsigned
  let unknown := [".nan", ".NaN", ".NAN"].any fun s => s.toList == text
  special || unknown ||
    (!isPadded unsigned && ((Binary64.readDecimal false unsigned).map Binary64.isFinite).getD false)

/-- The meaning of a plain scalar. -/
def Meaning.ofPlain (text : String) : Meaning :=
  match text with
  | "" | "~" | "null" | "Null" | "NULL" => .null
  | "true" | "True" | "TRUE" => .bool true
  | "false" | "False" | "FALSE" => .bool false
  | _ => match integer? text.toList with
    | some meaning => meaning
    | none => if isFloat text.toList then .float else .text text

/-- The meaning of a value that is a scalar. -/
def meaning? : Yaml → Option Meaning
  | .scalar true text => some (.ofPlain text)
  | .scalar false text => some (.text text)
  | _ => none

/-- Whether a value can be held whole: its collections nest at most `levels` deep, and all its
integers can be held. -/
def isHeld : (levels : Nat) → Yaml → Bool
  | _, .scalar plain text => (Yaml.scalar plain text).meaning? != some .wide
  | levels + 1, .sequence items => items.all (isHeld levels)
  | levels + 1, .mapping entries =>
      entries.all fun (key, value) => isHeld levels key && isHeld levels value
  | 0, _ => false

end BehaviorTree.Yaml
