import BehaviorTree.Yaml.Token

/-! # Reading YAML

The part of YAML that settings and scripts are written in: mappings and sequences, both by
indentation and in brackets, scalars, comments and document markers. A text holds at most one
document. Anchors, aliases, tags, block scalars and directives are refused. -/

namespace BehaviorTree

/-- A YAML value. A mapping keeps its entries as they were written. -/
inductive Yaml where
  | scalar (plain : Bool) (text : String)
  | sequence (items : List Yaml)
  | mapping (entries : List (Yaml × Yaml))

namespace Yaml

instance : Inhabited Yaml := ⟨.sequence []⟩

/-- The scalar where nothing is written. -/
def blank : Yaml := .scalar true ""

/-- Whether something other than these tokens comes next. -/
def nextIsNot (stops : List Token) (tokens : List Token) : Bool :=
  tokens.head?.all fun token => token ∉ stops

mutual

/-- The value that the next tokens make. `block` says whether it may be laid out by indentation, and
`aligned` whether its items may begin without indentation of their own, as those under a key. -/
def readNode : (fuel : Nat) → (block aligned : Bool) → List Token → Option (Yaml × List Token)
  | 0, _, _, _ => none
  | fuel + 1, block, aligned, tokens => match tokens with
    | .scalar plain text :: rest => some (.scalar plain text, rest)
    | .bracketOpen :: rest => do
        let (items, rest) ← readFlowItems fuel rest
        return (.sequence items, rest)
    | .braceOpen :: rest => do
        let (entries, rest) ← readFlowEntries fuel rest
        return (.mapping entries, rest)
    | .item :: rest =>
        if aligned then do
          let (items, rest) ← readAligned fuel (.item :: rest)
          return (.sequence items, rest)
        else none
    | .sequenceStart :: rest =>
        if block then do
          let (items, rest) ← readItems fuel rest
          return (.sequence items, rest)
        else none
    | .mappingStart :: rest =>
        if block then do
          let (entries, rest) ← readEntries fuel rest
          return (.mapping entries, rest)
        else none
    | _ => none

/-- A value that is left out when one of the tokens `stops` comes next. -/
def readOptional : (fuel : Nat) → (block aligned : Bool) → (stops : List Token) → List Token →
    Option (Yaml × List Token)
  | 0, _, _, _, _ => none
  | fuel + 1, block, aligned, stops, tokens =>
      if nextIsNot stops tokens then readNode fuel block aligned tokens else some (blank, tokens)

/-- The items of a sequence by indentation, up to its end. -/
def readItems : (fuel : Nat) → List Token → Option (List Yaml × List Token)
  | 0, _ => none
  | fuel + 1, tokens => match tokens with
    | .item :: rest => do
        let (item, rest) ← readOptional fuel true false [.item, .blockEnd] rest
        let (items, rest) ← readItems fuel rest
        return (item :: items, rest)
    | .blockEnd :: rest => some ([], rest)
    | _ => none

/-- The items of a sequence in the column of its key. -/
def readAligned : (fuel : Nat) → List Token → Option (List Yaml × List Token)
  | 0, _ => none
  | fuel + 1, tokens => match tokens with
    | .item :: rest => do
        let (item, rest) ← readOptional fuel true false [.item, .key, .value, .blockEnd] rest
        let (items, rest) ← readAligned fuel rest
        return (item :: items, rest)
    | rest => some ([], rest)

/-- The entries of a mapping by indentation, up to its end. -/
def readEntries : (fuel : Nat) → List Token → Option (List (Yaml × Yaml) × List Token)
  | 0, _ => none
  | fuel + 1, tokens => match tokens with
    | .key :: rest => do
        let stops : List Token := [.key, .value, .blockEnd]
        let (key, rest) ← readOptional fuel true true stops rest
        let (value, rest) ← match rest with
          | .value :: rest => readOptional fuel true true stops rest
          | rest => some (blank, rest)
        let (entries, rest) ← readEntries fuel rest
        return ((key, value) :: entries, rest)
    | .blockEnd :: rest => some ([], rest)
    | _ => none

/-- The value of a key in brackets, if it has one. -/
def readFlowValue : (fuel : Nat) → (close : Token) → List Token → Option (Yaml × List Token)
  | 0, _, _ => none
  | fuel + 1, close, tokens => match tokens with
    | .value :: rest => readOptional fuel false false [.comma, close] rest
    | rest => some (blank, rest)

/-- The items of a bracketed sequence, up to its end. An item may be a mapping of one entry. When
the key of such an entry is left out, the token that shows this is lost. -/
def readFlowItems : (fuel : Nat) → List Token → Option (List Yaml × List Token)
  | 0, _ => none
  | fuel + 1, tokens => match tokens with
    | .bracketClose :: rest => some ([], rest)
    | _ => do
        let (item, rest) ← match tokens with
          | .key :: rest => do
              let (key, rest) ←
                if nextIsNot [.value, .comma, .bracketClose] rest then
                  readNode fuel false false rest
                else some (blank, rest.tail)
              let (value, rest) ← readFlowValue fuel .bracketClose rest
              some (mapping [(key, value)], rest)
          | _ => readNode fuel false false tokens
        match rest with
        | .comma :: rest => do
            let (items, rest) ← readFlowItems fuel rest
            return (item :: items, rest)
        | .bracketClose :: rest => return ([item], rest)
        | _ => none

/-- The entries of a bracketed mapping, up to its end. A key without a value is bound to nothing. -/
def readFlowEntries : (fuel : Nat) → List Token → Option (List (Yaml × Yaml) × List Token)
  | 0, _ => none
  | fuel + 1, tokens => match tokens with
    | .braceClose :: rest => some ([], rest)
    | _ => do
        let (entry, rest) ← match tokens with
          | .key :: rest => do
              let (key, rest) ←
                readOptional fuel false false [.value, .comma, .braceClose] rest
              let (value, rest) ← readFlowValue fuel .braceClose rest
              some ((key, value), rest)
          | _ => do
              let (key, rest) ← readNode fuel false false tokens
              some ((key, blank), rest)
        match rest with
        | .comma :: rest => do
            let (entries, rest) ← readFlowEntries fuel rest
            return (entry :: entries, rest)
        | .braceClose :: rest => return ([entry], rest)
        | _ => none

end

/-- The one document that tokens make, if there is any. Nothing is written in a document that ends
right after its start. -/
def readDocument (tokens : List Token) : Option (Option Yaml) := do
  let fuel := 3 * tokens.length + 3
  match tokens with
  | [] => return none
  | [.documentStart] => return some blank
  | .documentStart :: rest => finish (← readOptional fuel true false ends rest)
  | _ => finish (← readNode fuel true false tokens)
where
  ends : List Token := [.documentStart, .documentEnd]
  finish : Yaml × List Token → Option (Option Yaml)
    | (value, rest) => if rest.all (· == .documentEnd) then some (some value) else none

/-- The value that a text holds: `some none` when it holds no document, and `none` when it is not
well formed or holds several. -/
def read (s : String) : Option (Option Yaml) :=
  let text := s.toList
  if text.all isPrintable then (tokens? (unifyBreaks text)).bind readDocument else none

end Yaml

end BehaviorTree
