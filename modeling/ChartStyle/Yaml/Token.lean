import ChartStyle.Yaml.Quoted

/-!
# Tokens of a YAML text

`tokens?` splits a text into scalars and punctuation. The start and the end of blocks, which a
text shows by indentation only, become tokens of their own; a key is known as one only when its
colon is met, and its token is then put in front of it. Anchors, tags and block scalars are not
read.
-/

set_option autoImplicit false

namespace ChartStyle.Yaml

/-- A token. -/
inductive Token where
  | documentStart
  | documentEnd
  | blockSequenceStart
  | blockMappingStart
  | blockEnd
  | blockEntry
  | flowSequenceStart
  | flowSequenceEnd
  | flowMappingStart
  | flowMappingEnd
  | flowEntry
  | key
  | value
  | scalar (text : String) (quoted : Bool)
  deriving DecidableEq

/-- A place in front of which a key may turn out to stand. -/
structure PossibleKey where
  /-- The number of tokens in front of it. -/
  position : Nat
  /-- In block style, a line that starts at the indentation of its block must hold a key. -/
  required : Bool
  index : Nat
  line : Nat
  column : Nat

/-- How far a text has been split. -/
structure Lexer where
  cursor : Cursor
  tokens : Array Token := #[]
  /-- The columns of the blocks that are open, the innermost first. -/
  indents : List Int := []
  /-- The number of lists and mappings in flow style that are open. -/
  flowLevel : Nat := 0
  keyAllowed : Bool := true
  /-- The possible keys by flow level. -/
  keys : List (Nat × PossibleKey) := []

namespace Lexer

/-- The column of the innermost block. -/
def indent (s : Lexer) : Int := s.indents.headD (-1)

/-- The lexer is within a list or mapping in flow style. -/
def inFlow (s : Lexer) : Bool := s.flowLevel != 0

/-- Adds a token. -/
def push (s : Lexer) (t : Token) : Lexer := { s with tokens := s.tokens.push t }

/-- Puts a token in front of those from a position on. -/
def insert (s : Lexer) (position : Nat) (t : Token) : Lexer :=
  { s with
    tokens := (s.tokens.extract 0 position).push t ++ s.tokens.extract position s.tokens.size }

/-- Passes over some characters. -/
def skip (s : Lexer) (count : Nat) : Lexer := { s with cursor := s.cursor.advance count }

/-! ## Possible keys -/

/-- Forgets the possible key of the current level; a required one must not be forgotten. -/
def dropKey (s : Lexer) : Option Lexer :=
  match s.keys.lookup s.flowLevel with
  | some key =>
    if key.required then none
    else some { s with keys := s.keys.filter fun (level, _) => level != s.flowLevel }
  | none => some s

/-- Notes that a key may start here. -/
def saveKey (s : Lexer) : Option Lexer :=
  if s.keyAllowed then
    s.dropKey.map fun s =>
      { s with keys := (s.flowLevel, {
          position := s.tokens.size
          required := !s.inFlow && decide (s.indent = s.cursor.column)
          index := s.cursor.index
          line := s.cursor.line
          column := s.cursor.column }) :: s.keys }
  else some s

/-- The greatest length of a key that is not marked as one. -/
def maxKeyLength : Nat := 1024

/-- Forgets the possible keys that are too far back: on another line, or too long ago. -/
def dropStaleKeys (s : Lexer) : Option Lexer :=
  let isStale (key : PossibleKey) : Bool :=
    key.line != s.cursor.line || decide (maxKeyLength < s.cursor.index - key.index)
  if s.keys.any fun (_, key) => isStale key && key.required then none
  else some { s with keys := s.keys.filter fun (_, key) => !isStale key }

/-! ## Blocks -/

/-- The columns of the blocks up to a column, and the number of blocks beyond it. -/
def unwound (column : Int) : List Int → List Int × Nat
  | [] => ([], 0)
  | indent :: indents =>
    if column < indent then
      let (rest, count) := unwound column indents
      (rest, count + 1)
    else (indent :: indents, 0)

/-- Closes the blocks beyond a column. -/
def unwind (s : Lexer) (column : Int) : Lexer :=
  if s.inFlow then s
  else
    let (indents, count) := unwound column s.indents
    { s with indents, tokens := s.tokens ++ (List.replicate count Token.blockEnd).toArray }

/-- Opens a block at a column unless one is open there. -/
def openBlock (s : Lexer) (column : Nat) (position : Nat) (t : Token) : Lexer :=
  if s.indent < column then
    { s with indents := (column : Int) :: s.indents }.insert position t
  else s

/-! ## Gaps -/

/-- Passes over blanks, comments and line breaks. In block style a key may follow a break. -/
def skipGaps : Nat → Lexer → Lexer
  | 0, s => s
  | fuel + 1, s =>
    let rest := s.cursor.rest.dropWhile (· == ' ')
    let rest :=
      match rest with
      | '#' :: _ => rest.dropWhile fun c => !isBreak c
      | _ => rest
    match lineBreak? rest with
    | some (_, after) =>
      skipGaps fuel
        { s with cursor := s.cursor.moveTo after, keyAllowed := s.keyAllowed || !s.inFlow }
    | none => { s with cursor := s.cursor.moveTo rest }

/-! ## One token -/

/-- A marker between documents. -/
def marker (s : Lexer) (t : Token) : Option Lexer := do
  let s ← (s.unwind (-1)).dropKey
  return ({ s with keyAllowed := false }.skip 3).push t

/-- The start of a list or mapping in flow style. -/
def openFlow (s : Lexer) (t : Token) : Option Lexer := do
  let s ← s.saveKey
  return ({ s with flowLevel := s.flowLevel + 1, keyAllowed := true }.skip 1).push t

/-- The end of a list or mapping in flow style. -/
def closeFlow (s : Lexer) (t : Token) : Option Lexer := do
  let s ← s.dropKey
  return ({ s with flowLevel := s.flowLevel - 1, keyAllowed := false }.skip 1).push t

/-- A comma. -/
def flowEntry (s : Lexer) : Option Lexer := do
  let s ← { s with keyAllowed := true }.dropKey
  return (s.skip 1).push .flowEntry

/-- A dash in front of an item. -/
def blockEntry (s : Lexer) : Option Lexer := do
  let s ←
    if s.inFlow then some s
    else if s.keyAllowed then
      some (s.openBlock s.cursor.column s.tokens.size .blockSequenceStart)
    else none
  let s ← { s with keyAllowed := true }.dropKey
  return (s.skip 1).push .blockEntry

/-- A question mark in front of a key. -/
def explicitKey (s : Lexer) : Option Lexer := do
  let s ←
    if s.inFlow then some s
    else if s.keyAllowed then
      some (s.openBlock s.cursor.column s.tokens.size .blockMappingStart)
    else none
  let s ← { s with keyAllowed := !s.inFlow }.dropKey
  return (s.skip 1).push .key

/-- A colon after a possible key, or in front of a value without one. -/
def valueMark (s : Lexer) : Option Lexer := do
  match s.keys.lookup s.flowLevel with
  | some key =>
    let keys := s.keys.filter fun (level, _) => level != s.flowLevel
    let s := { s with keys, keyAllowed := false }.insert key.position .key
    let s := if s.inFlow then s else s.openBlock key.column key.position .blockMappingStart
    return (s.skip 1).push .value
  | none =>
    let s ←
      if s.inFlow then some s
      else if s.keyAllowed then
        some (s.openBlock s.cursor.column s.tokens.size .blockMappingStart)
      else none
    let s ← { s with keyAllowed := !s.inFlow }.dropKey
    return (s.skip 1).push .value

/-- A scalar in quotes. -/
def quotedScalar (s : Lexer) (double : Bool) : Option Lexer := do
  let s ← s.saveKey
  let body := s.cursor.rest.drop 1
  let (text, after) ← quotedText (body.length + 1) double body
  return { s with cursor := s.cursor.moveTo after, keyAllowed := false }.push
    (.scalar (String.ofList text) true)

/-- A scalar without quotes. -/
def plainScalar (s : Lexer) : Option Lexer := do
  let s ← s.saveKey
  let (text, cursor, crosses) :=
    plainText (s.cursor.rest.length + 1) s.inFlow (s.indent + 1) s.cursor
  return { s with cursor, keyAllowed := crosses }.push (.scalar (String.ofList text) false)

/-- The characters that do not start a plain scalar. -/
def isIndicator (c : Char) : Bool :=
  isSpace c || isFlowMark c || ['-', '?', ':', '#', '&', '*', '!', '|', '>', '\'', '"', '%', '@',
    Char.ofNat 0x60].contains c

/-- A plain scalar starts here. -/
def startsPlain (s : Lexer) (c : Char) (after : List Char) : Bool :=
  !isIndicator c
    || !endsWord after && (c == '-' || !s.inFlow && (c == '?' || c == ':'))

/-- The end of the text. -/
def finish (s : Lexer) : Option Lexer := (s.unwind (-1)).dropKey

/-- The token that starts with a character. -/
def token (s : Lexer) (c : Char) (after : List Char) : Option Lexer :=
  if s.cursor.column = 0 && isMarker (c :: after) then
    s.marker (if c == '-' then .documentStart else .documentEnd)
  else if c == '[' then s.openFlow .flowSequenceStart
  else if c == '\x7b' then s.openFlow .flowMappingStart
  else if c == ']' then s.closeFlow .flowSequenceEnd
  else if c == '\x7d' then s.closeFlow .flowMappingEnd
  else if c == ',' then s.flowEntry
  else if c == '-' && endsWord after then s.blockEntry
  else if c == '?' && (s.inFlow || endsWord after) then s.explicitKey
  else if c == ':' && (s.inFlow || endsWord after) then s.valueMark
  else if c == '\'' then s.quotedScalar false
  else if c == '"' then s.quotedScalar true
  else if s.startsPlain c after then s.plainScalar
  else none

/-- All tokens from here on. -/
def run : Nat → Lexer → Option (Array Token)
  | 0, _ => none
  | fuel + 1, s => do
    let s ← (s.skipGaps (s.cursor.rest.length + 1)).dropStaleKeys
    let s := s.unwind s.cursor.column
    match s.cursor.rest with
    | [] => return (← s.finish).tokens
    | c :: after => (← s.token c after).run fuel

end Lexer

/-- The tokens of a text, when it can be split into tokens. -/
def tokens? (text : String) : Option (List Token) :=
  let cs := text.toList
  if cs.all isAllowed then
    let cursor : Cursor := { rest := cs }
    let cursor := if cs.head? == some byteOrderMark then cursor.next else cursor
    (Lexer.run (cs.length + 1) { cursor }).map Array.toList
  else none

end ChartStyle.Yaml
