import ChartStyle.Json.Reader
import ChartStyle.Yaml.Cursor

/-!
# Quoted and plain runs of text

A scalar may go over several lines. Within it a single line break is a space, further ones are
kept, and the blanks around them are dropped. Double quotes know escapes; in single quotes a
quote is written twice; a word without quotes ends before a comment, before a colon that a space
follows, and in a list or mapping of flow style also before its punctuation.
-/

set_option autoImplicit false

namespace ChartStyle.Yaml

/-! ## Line folding -/

/-- A line break and those after it as they are read: one alone is a space. -/
def fold (first : Char) (further : List Char) : List Char :=
  if first ≠ '\n' then first :: further
  else if further.isEmpty then [' ']
  else further

/-- A space or a tab. -/
def isGap (c : Char) : Bool := c == ' ' || c == '\t'

/-! ## Quoted scalars -/

/-- The further line breaks within quotes, and what follows them; a marker is refused. -/
def quotedBreaks : Nat → List Char → Option (List Char × List Char)
  | 0, _ => none
  | fuel + 1, cs =>
    if isMarker cs then none
    else
      match lineBreak? (cs.dropWhile isGap) with
      | some (c, rest) => (quotedBreaks fuel rest).map fun (more, after) => (c :: more, after)
      | none => some ([], cs.dropWhile isGap)

/-- The characters that one letter after a backslash stands for. -/
def escapes : List (Char × Char) := [
  ('0', '\x00'), ('a', '\x07'), ('b', '\x08'), ('t', '\t'), ('\t', '\t'), ('n', '\n'),
  ('v', '\x0b'), ('f', '\x0c'), ('r', '\r'), ('e', '\x1b'), (' ', ' '), ('"', '"'),
  ('\\', '\\'), ('/', '/'), ('N', '\u0085'), ('_', '\u00a0'), ('L', '\u2028'),
  ('P', '\u2029')]

/-- The lengths of the escapes with a hexadecimal number. -/
def numericEscapes : List (Char × Nat) := [('x', 2), ('u', 4), ('U', 8)]

/-- The character with the number that so many hexadecimal digits give. -/
def numericEscape? (count : Nat) (cs : List Char) : Option Char := do
  let digits := cs.take count
  if digits.length = count then
    let values ← digits.mapM Json.hexValue?
    let n := values.foldl (fun n digit => 16 * n + digit) 0
    if n ≤ 0x10ffff then some (Json.charOf n) else none
  else none

/-- A scalar up to its closing quote, and what follows the quote. -/
def quotedText : Nat → Bool → List Char → Option (List Char × List Char)
  | 0, _, _ => none
  | _, _, [] => none
  | fuel + 1, double, c :: rest =>
    let followedBy (chunk after : List Char) : Option (List Char × List Char) :=
      (quotedText fuel double after).map fun (more, after) => (chunk ++ more, after)
    if isSpace c then
      let gap := (c :: rest).takeWhile isGap
      let after := (c :: rest).dropWhile isGap
      match lineBreak? after with
      | some (first, lines) =>
        match quotedBreaks (lines.length + 1) lines with
        | some (further, after) => followedBy (fold first further) after
        | none => none
      | none => followedBy gap after
    else if double then
      match c, rest with
      | '"', after => some ([], after)
      | '\\', [] => none
      | '\\', e :: after =>
        match escapes.lookup e, numericEscapes.lookup e with
        | some plain, _ => followedBy [plain] after
        | none, some count =>
          match numericEscape? count after with
          | some plain => followedBy [plain] (after.drop count)
          | none => none
        | none, none =>
          match lineBreak? (e :: after) with
          | some (_, lines) =>
            match quotedBreaks (lines.length + 1) lines with
            | some (further, after) => followedBy further after
            | none => none
          | none => none
      | c, after => followedBy [c] after
    else
      match c, rest with
      | '\'', '\'' :: after => followedBy ['\''] after
      | '\'', after => some ([], after)
      | c, after => followedBy [c] after

/-! ## Plain scalars -/

/-- Punctuation of lists and mappings in flow style. -/
def isFlowMark (c : Char) : Bool :=
  c == ',' || c == '[' || c == ']' || c == '\x7b' || c == '\x7d'

/-- A colon that ends a word. -/
def endsAtColon (flow : Bool) (after : List Char) : Bool :=
  endsWord after || flow && match after with
    | c :: _ => isFlowMark c
    | [] => false

/-- A word without quotes, and what follows it. -/
def plainWord (flow : Bool) : List Char → List Char × List Char
  | [] => ([], [])
  | c :: cs =>
    if isSpace c || c == ':' && endsAtColon flow cs || flow && (isFlowMark c || c == '?') then
      ([], c :: cs)
    else
      let (word, rest) := plainWord flow cs
      (c :: word, rest)

/-- The gap after a word: what it is read as, empty when the scalar ends with the word; what
follows the gap; and whether it goes over a line break. -/
structure PlainGap where
  text : List Char
  rest : List Char
  crossesLine : Bool

/-- The further line breaks after a word, and what follows them; nothing when a marker does. -/
def plainBreaks : List Char → Option (List Char) × List Char
  | [] => (some [], [])
  | '\r' :: '\n' :: cs =>
    if isMarker cs then (none, cs)
    else
      let (more, rest) := plainBreaks cs
      (more.map ('\n' :: ·), rest)
  | c :: cs =>
    if c == ' ' then plainBreaks cs
    else if isBreak c then
      if isMarker cs then (none, cs)
      else
        let (more, rest) := plainBreaks cs
        (more.map ((if c == '\u2028' || c == '\u2029' then c else '\n') :: ·), rest)
    else (some [], c :: cs)

/-- The gap after a word. -/
def plainGap (cs : List Char) : PlainGap :=
  let after := cs.dropWhile (· == ' ')
  match lineBreak? after with
  | none => { text := cs.takeWhile (· == ' '), rest := after, crossesLine := false }
  | some (first, lines) =>
    if isMarker lines then { text := [], rest := lines, crossesLine := true }
    else
      match plainBreaks lines with
      | (some further, rest) => { text := fold first further, rest, crossesLine := true }
      | (none, rest) => { text := [], rest, crossesLine := true }

/-- A plain scalar from a cursor on: its characters, the cursor after it, and whether a line
break comes last. In block style it ends at a line that is indented less than `indent`. -/
def plainText : Nat → Bool → Int → Cursor → List Char × Cursor × Bool
  | 0, _, _, cursor => ([], cursor, false)
  | fuel + 1, flow, indent, cursor =>
    let (word, after) := plainWord flow cursor.rest
    let gap := plainGap after
    let next := (cursor.moveTo after).moveTo gap.rest
    let ends :=
      gap.text.isEmpty || next.rest.head? == some '#'
        || !flow && decide ((next.column : Int) < indent) || (plainWord flow next.rest).1.isEmpty
    if ends then (word, next, gap.crossesLine)
    else
      let (more, last, crosses) := plainText fuel flow indent next
      (word ++ gap.text ++ more, last, crosses)

end ChartStyle.Yaml
