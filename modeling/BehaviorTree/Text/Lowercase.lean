import BehaviorTree.Text.CaseTables

/-! # Lower case

Lower-casing goes character by character, but for two letters. The capital I with a dot above
becomes a small i followed by a combining dot. The capital sigma becomes a final sigma at the end of
a word and a plain one elsewhere; a word ends where a cased character stands before and none after,
marks and other case-ignorable characters being passed over in both directions. -/

namespace BehaviorTree.Text

/-- Whether the first character of `s` that counts for casing is a cased one. -/
def startsCased (s : List Char) : Bool :=
  match s.dropWhile (inRanges caseIgnorableRanges) with
  | [] => false
  | c :: _ => inRanges casedRanges c

/-- The lower-case form of `c` by itself. -/
def lowerChar (c : Char) : List Char :=
  if c.toNat < 0x80 then [c.toLower]
  else if c = 'İ' then ['i', '\u0307']
  else if c = 'Σ' then ['σ']
  else [(lowerRuns.findSome? (·.partner? c)).getD c]

/-- Lower case of the text that follows `before`, of which the nearest character comes first. -/
def lowerFrom (before : List Char) : List Char → List Char
  | [] => []
  | c :: rest =>
      let low := if c = 'Σ' && startsCased before && !startsCased rest then ['ς'] else lowerChar c
      low ++ lowerFrom (c :: before) rest

def lowercase (s : String) : String :=
  String.ofList (lowerFrom [] s.toList)

end BehaviorTree.Text
