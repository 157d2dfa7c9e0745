import ChartStyle.Value.Entries
import ChartStyle.Yaml.Scalar
import ChartStyle.Yaml.Token

/-!
# Reading YAML

`Yaml.read` reads a text with at most one document into a value. A text without a document, and
an entry or item without a value, are null. Reading is bounded by the number of tokens. What
`Yaml.tokens?` does not read, an anchor or a tag for one, makes a text malformed.
-/

set_option autoImplicit false

namespace ChartStyle.Yaml

/-- The first token is one of those. -/
def startsWith (expected : List Token) (tokens : List Token) : Bool :=
  match tokens with
  | t :: _ => expected.contains t
  | [] => false

/-- An entry of a mapping; lists and mappings are no keys. -/
def entry? (key v : Value) : Option (Value × Value) := if key.isKey then some (key, v) else none

mutual

/-- A value, in block style where that is allowed; `dashes` allows items at the column of their
key. -/
def node? : Nat → Bool → Bool → List Token → Option (Value × List Token)
  | 0, _, _, _ => none
  | fuel + 1, block, dashes, tokens =>
    match tokens with
    | .scalar text true :: rest => some (.text text, rest)
    | .scalar text false :: rest => (readScalar? text).map fun v => (v, rest)
    | .flowSequenceStart :: rest => do
      let (items, rest) ← flowItems? fuel true rest
      return (.list items, rest)
    | .flowMappingStart :: rest => do
      let (entries, rest) ← flowEntries? fuel true rest
      return (.map (Entries.ofPairs entries), rest)
    | .blockEntry :: _ => do
      if dashes then
        let (items, rest) ← dashItems? fuel tokens
        return (.list items, rest)
      else none
    | .blockSequenceStart :: rest => do
      if block then
        let (items, rest) ← blockItems? fuel rest
        return (.list items, rest)
      else none
    | .blockMappingStart :: rest => do
      if block then
        let (entries, rest) ← blockEntries? fuel rest
        return (.map (Entries.ofPairs entries), rest)
      else none
    | _ => none

/-- A value in block style, null in front of the tokens that cannot start one there. -/
def blockNode? : Nat → Bool → List Token → List Token → Option (Value × List Token)
  | 0, _, _, _ => none
  | fuel + 1, dashes, ends, tokens =>
    if startsWith ends tokens then some (.null, tokens) else node? fuel true dashes tokens

/-- A value in flow style, null in front of the tokens that cannot start one there. -/
def flowNode? : Nat → List Token → List Token → Option (Value × List Token)
  | 0, _, _ => none
  | fuel + 1, ends, tokens =>
    if startsWith ends tokens then some (.null, tokens) else node? fuel false false tokens

/-- The items of a list up to the end of its block. -/
def blockItems? : Nat → List Token → Option (List Value × List Token)
  | 0, _ => none
  | fuel + 1, tokens =>
    match tokens with
    | .blockEntry :: rest => do
      let (v, rest) ← blockNode? fuel false [.blockEntry, .blockEnd] rest
      let (items, rest) ← blockItems? fuel rest
      return (v :: items, rest)
    | .blockEnd :: rest => some ([], rest)
    | _ => none

/-- The items of a list at the column of its key. -/
def dashItems? : Nat → List Token → Option (List Value × List Token)
  | 0, _ => none
  | fuel + 1, tokens =>
    match tokens with
    | .blockEntry :: rest => do
      let (v, rest) ← blockNode? fuel false [.blockEntry, .key, .value, .blockEnd] rest
      let (items, rest) ← dashItems? fuel rest
      return (v :: items, rest)
    | _ => some ([], tokens)

/-- The entries of a mapping up to the end of its block. -/
def blockEntries? : Nat → List Token → Option (List (Value × Value) × List Token)
  | 0, _ => none
  | fuel + 1, tokens =>
    match tokens with
    | .key :: rest => do
      let (key, rest) ← blockNode? fuel true [.key, .value, .blockEnd] rest
      let (v, rest) ←
        match rest with
        | .value :: rest => blockNode? fuel true [.key, .value, .blockEnd] rest
        | _ => some (.null, rest)
      let e ← entry? key v
      let (entries, rest) ← blockEntries? fuel rest
      return (e :: entries, rest)
    | .blockEnd :: rest => some ([], rest)
    | _ => none

/-- The items of a list up to its closing bracket; a pair stands for a mapping of one entry. -/
def flowItems? : Nat → Bool → List Token → Option (List Value × List Token)
  | 0, _, _ => none
  | fuel + 1, first, tokens =>
    match tokens with
    | .flowSequenceEnd :: rest => some ([], rest)
    | _ => do
      let tokens ←
        match first, tokens with
        | true, tokens => some tokens
        | false, .flowEntry :: rest => some rest
        | false, _ => none
      match tokens with
      | .flowSequenceEnd :: rest => return ([], rest)
      | .key :: rest =>
        let (key, rest) ← flowNode? fuel [.value, .flowEntry, .flowSequenceEnd] rest
        let (v, rest) ←
          match rest with
          | .value :: rest => flowNode? fuel [.flowEntry, .flowSequenceEnd] rest
          | _ => some (.null, rest)
        let e ← entry? key v
        let (items, rest) ← flowItems? fuel false rest
        return (.map [e] :: items, rest)
      | tokens =>
        let (v, rest) ← node? fuel false false tokens
        let (items, rest) ← flowItems? fuel false rest
        return (v :: items, rest)

/-- The entries of a mapping up to its closing brace; a key on its own has the value null. -/
def flowEntries? : Nat → Bool → List Token → Option (List (Value × Value) × List Token)
  | 0, _, _ => none
  | fuel + 1, first, tokens =>
    match tokens with
    | .flowMappingEnd :: rest => some ([], rest)
    | _ => do
      let tokens ←
        match first, tokens with
        | true, tokens => some tokens
        | false, .flowEntry :: rest => some rest
        | false, _ => none
      match tokens with
      | .flowMappingEnd :: rest => return ([], rest)
      | .key :: rest =>
        let (key, rest) ← flowNode? fuel [.value, .flowEntry, .flowMappingEnd] rest
        let (v, rest) ←
          match rest with
          | .value :: rest => flowNode? fuel [.flowEntry, .flowMappingEnd] rest
          | _ => some (.null, rest)
        let e ← entry? key v
        let (entries, rest) ← flowEntries? fuel false rest
        return (e :: entries, rest)
      | tokens =>
        let (key, rest) ← node? fuel false false tokens
        let e ← entry? key .null
        let (entries, rest) ← flowEntries? fuel false rest
        return (e :: entries, rest)

end

/-- The value of a document, and the tokens after it. -/
def document? (fuel : Nat) (tokens : List Token) : Option (Value × List Token) :=
  match tokens with
  | [] => some (.null, [])
  | .documentStart :: [] => some (.null, [])
  | .documentStart :: rest => blockNode? fuel false [.documentStart, .documentEnd] rest
  | tokens => node? fuel true false tokens

/-- The value of a YAML text; what is not YAML, and more than one document, is an error. -/
def read (text : String) : Except Fault Value :=
  match tokens? text with
  | none => .error .malformedYaml
  | some tokens =>
    match document? (3 * tokens.length + 3) tokens with
    | some (v, rest) =>
      if rest.all (· == .documentEnd) then .ok v else .error .malformedYaml
    | none => .error .malformedYaml

/-- A text that is not read is malformed. -/
theorem read_eq_error {text : String} {fault : Fault} (h : read text = .error fault) :
    fault = .malformedYaml := by
  unfold read at h
  split at h
  · cases h
    rfl
  · split at h
    · split at h <;> cases h
      rfl
    · cases h
      rfl

end ChartStyle.Yaml
