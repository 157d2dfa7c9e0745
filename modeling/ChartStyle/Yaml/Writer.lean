import ChartStyle.Text.Quoted
import ChartStyle.Value.Entries
import ChartStyle.Yaml.Cursor
import ChartStyle.Yaml.Scalar

/-!
# Writing YAML

`Yaml.write` writes a mapping in block style. A text is written without quotes where it reads back
as the same text, else in single quotes, and in double quotes with escapes when it holds what
single quotes cannot show. Long texts are folded at a space beyond the eightieth column.
-/

set_option autoImplicit false

namespace ChartStyle.Yaml

/-- The column beyond which a text is folded. -/
def lineWidth : Nat := 80

/-- A new line with an indentation. -/
def indentLine (indent : Nat) : List Char := '\n' :: List.replicate indent ' '

/-! ## How a text may be written -/

/-- The characters that make a text something else when it starts with one. -/
def leadingMarks : List Char :=
  ['#', ',', '[', ']', '\x7b', '\x7d', '&', '*', '!', '|', '>', '\'', '"', '%', '@',
    Char.ofNat 0x60]

/-- A text starts with something other than a word. -/
def startsMarked (cs : List Char) : Bool :=
  match cs with
  | [] => false
  | c :: rest =>
    leadingMarks.contains c || (c == '?' || c == ':' || c == '-') && endsWord rest
      || ['-', '-', '-'].isPrefixOf cs || ['.', '.', '.'].isPrefixOf cs

/-- Further on in a text, a colon in front of a space, or a comment. -/
def holdsMark : List Char → Bool
  | [] => false
  | [_] => false
  | c :: d :: rest =>
    d == ':' && endsWord rest || d == '#' && isSpace c || holdsMark (d :: rest)

/-- A character that only escapes can show. -/
def isSpecial (c : Char) : Bool := c != '\n' && !decide (0x20 ≤ c.toNat ∧ c.toNat ≤ 0x7e)

/-- Two neighbours of a text meet a condition. -/
def anyNeighbours (p : Char → Char → Bool) : List Char → Bool
  | c :: d :: rest => p c d || anyNeighbours p (d :: rest)
  | _ => false

/-- A space or a line feed. -/
def isFoldable (c : Char) : Bool := c == ' ' || c == '\n'

/-- A text that stands for itself without quotes. -/
def isPlainText (s : String) : Bool :=
  let cs := s.toList
  scalarKind s == .text && !startsMarked cs && !holdsMark cs
    && cs.all (fun c => !isSpecial c && c != '\n')
    && !(cs.head?.any isFoldable) && !(cs.getLast?.any isFoldable)

/-- A text that single quotes can show. -/
def isSingleQuotable (s : String) : Bool :=
  !s.toList.any isSpecial
    && !anyNeighbours (fun c d => isFoldable c && isFoldable d && c != d) s.toList

/-! ## Folding -/

/-- A text as runs of spaces, of line feeds and of other characters. -/
def runs : List Char → List (List Char)
  | [] => []
  | c :: cs =>
    match runs cs with
    | (d :: ds) :: rest =>
      if c = d ∨ !isFoldable c ∧ !isFoldable d then (c :: d :: ds) :: rest
      else [c] :: (d :: ds) :: rest
    | rest => [c] :: rest

/-- The runs of a text without quotes from a column on. -/
def foldPlain (indent : Nat) : Nat → List (List Char) → List Char
  | _, [] => []
  | column, run :: rest =>
    if run = [' '] ∧ lineWidth < column then
      indentLine indent ++ foldPlain indent indent rest
    else run ++ foldPlain indent (column + run.length) rest

/-- A run within single quotes, where a quote is written twice. -/
def doubleQuotes (run : List Char) : List Char :=
  run.flatMap fun c => if c = '\'' then ['\'', '\''] else [c]

/-- The runs of a text in single quotes from a column on. -/
def foldSingle (indent : Nat) : Bool → Nat → List (List Char) → List Char
  | _, _, [] => []
  | first, column, run :: rest =>
    if run = [' '] ∧ lineWidth < column ∧ !first ∧ !rest.isEmpty then
      indentLine indent ++ foldSingle indent false indent rest
    else if run.head? = some '\n' then
      run ++ indentLine indent ++ foldSingle indent false indent rest
    else
      let written := doubleQuotes run
      written ++ foldSingle indent false (column + written.length) rest

/-- The letters of the escapes. -/
def escapeLetters : List (Char × Char) := [
  ('\x00', '0'), ('\x07', 'a'), ('\x08', 'b'), ('\t', 't'), ('\n', 'n'), ('\x0b', 'v'),
  ('\x0c', 'f'), ('\r', 'r'), ('\x1b', 'e'), ('"', '"'), ('\\', '\\'), ('\u0085', 'N'),
  ('\u00a0', '_'), ('\u2028', 'L'), ('\u2029', 'P')]

/-- The last hexadecimal digits of a number, in upper case. -/
def upperHex (width n : Nat) : List Char := (Text.hexDigits width n).map Char.toUpper

/-- The escape of a character, when it needs one in double quotes. -/
def escape? (c : Char) : Option (List Char) :=
  match escapeLetters.lookup c with
  | some letter => some ['\\', letter]
  | none =>
    if 0x20 ≤ c.toNat ∧ c.toNat ≤ 0x7e then none
    else if c.toNat ≤ 0xff then some ('\\' :: 'x' :: upperHex 2 c.toNat)
    else if c.toNat ≤ 0xffff then some ('\\' :: 'u' :: upperHex 4 c.toNat)
    else some ('\\' :: 'U' :: upperHex 8 c.toNat)

/-- A fold within double quotes in front of some text: the line ends with a backslash, and a
space at the start of the next one is marked by another. -/
def foldLine (indent : Nat) (after : List Char) : List Char × Nat :=
  if after.head? = some ' ' then ('\\' :: indentLine indent ++ ['\\'], indent + 1)
  else ('\\' :: indentLine indent, indent)

/-- A text in double quotes; `pending` is what has been passed over since the last escape or
fold and is not written yet. -/
def foldDouble (indent : Nat) : Bool → Nat → List Char → List Char → List Char
  | _, _, pending, [] => pending
  | first, column, pending, c :: rest =>
    match escape? c with
    | some escape =>
      let column := column + pending.length + escape.length
      if !first ∧ !rest.isEmpty ∧ lineWidth < column - 1 then
        let (fold, column) := foldLine indent rest
        pending ++ escape ++ fold ++ foldDouble indent false column [] rest
      else pending ++ escape ++ foldDouble indent false column [] rest
    | none =>
      if !first ∧ !rest.isEmpty ∧ (c = ' ' ∨ pending.isEmpty)
          ∧ lineWidth < column + pending.length then
        let (fold, column) := foldLine indent (c :: rest)
        pending ++ fold ++ foldDouble indent false column [c] rest
      else foldDouble indent false column (pending ++ [c]) rest

/-! ## Values -/

/-- A text from a column on. -/
def writeText (indent column : Nat) (s : String) : String :=
  String.ofList <|
    if isPlainText s then foldPlain indent column (runs s.toList)
    else if isSingleQuotable s then
      '\'' :: foldSingle indent true (column + 1) (runs s.toList) ++ ['\'']
    else '"' :: foldDouble indent true (column + 1) [] s.toList ++ ['"']

/-- A double; one with an exponent has a point as well. -/
def writeReal : Double → String
  | .nan => ".nan"
  | .infinite negative => if negative then "-.inf" else ".inf"
  | x =>
    let text := x.toText
    if text.toList.contains '.' then text
    else String.ofList (text.toList.flatMap fun c => if c = 'e' then ['.', '0', 'e'] else [c])

/-- The text of a key; keys are not folded. -/
def writeKey : Value → String
  | .text s =>
    if isPlainText s then s
    else if isSingleQuotable s && !s.toList.contains '\n' then
      String.ofList ('\'' :: doubleQuotes s.toList ++ ['\''])
    else
      String.ofList
        ('"' :: (s.toList.flatMap fun c => (escape? c).getD [c]) ++ ['"'])
  | .real x => writeReal x
  | v => v.keyName

/-- Spaces in front of a line. -/
def margin (indent : Nat) : String := String.ofList (List.replicate indent ' ')

mutual

/-- A value after a key at an indentation; `column` is that of the text after the space. -/
def writeAfterKey (indent column : Nat) : Value → String
  | .list (item :: items) => "\n" ++ margin indent ++ writeItems indent (item :: items)
  | .map (e :: entries) => "\n" ++ margin (indent + 2) ++ writeEntries (indent + 2) (e :: entries)
  | v => " " ++ writeLeaf (indent + 2) column v

/-- A value after a dash at an indentation. -/
def writeAfterDash (indent : Nat) : Value → String
  | .list (item :: items) => " " ++ writeItems (indent + 2) (item :: items)
  | .map (e :: entries) => " " ++ writeEntries (indent + 2) (e :: entries)
  | v => " " ++ writeLeaf (indent + 2) (indent + 2) v

/-- A value that holds no others. -/
def writeLeaf (indent column : Nat) : Value → String
  | .null => "null"
  | .bool b => if b then "true" else "false"
  | .int n => toString n
  | .real x => writeReal x
  | .text s => writeText indent column s
  | .list _ => "[]"
  | .map _ => "\x7b\x7d"
  | .perFeature => "null"

/-- The items of a list, all but the first on lines of their own. -/
def writeItems (indent : Nat) : List Value → String
  | [] => ""
  | [item] => "-" ++ writeAfterDash indent item
  | item :: items =>
    "-" ++ writeAfterDash indent item ++ "\n" ++ margin indent ++ writeItems indent items

/-- The entries of a mapping, all but the first on lines of their own. -/
def writeEntries (indent : Nat) : List (Value × Value) → String
  | [] => ""
  | [(key, v)] =>
    let name := writeKey key
    name ++ ":" ++ writeAfterKey indent (indent + name.length + 2) v
  | (key, v) :: entries =>
    let name := writeKey key
    name ++ ":" ++ writeAfterKey indent (indent + name.length + 2) v ++ "\n" ++ margin indent
      ++ writeEntries indent entries

end

/-- A mapping as a document. -/
def write (entries : Entries) : String :=
  (if entries.isEmpty then "\x7b\x7d" else writeEntries 0 entries) ++ "\n"

end ChartStyle.Yaml
