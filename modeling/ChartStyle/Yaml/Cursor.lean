/-!
# A position in a YAML text

A `Cursor` is what is left of a text with the line and the column that have been reached. The
column counts from the last line break; blocks are told apart by it.
-/

set_option autoImplicit false

namespace ChartStyle.Yaml

/-! ## Characters -/

/-- A character that ends a line. -/
def isBreak (c : Char) : Bool :=
  c == '\n' || c == '\r' || c == '\u0085' || c == '\u2028' || c == '\u2029'

/-- A space, a tab or a line break. -/
def isSpace (c : Char) : Bool := c == ' ' || c == '\t' || isBreak c

/-- What ends a word: a space or the end of the text. -/
def endsWord : List Char → Bool
  | [] => true
  | c :: _ => isSpace c

/-- A character that a text may hold at all. -/
def isAllowed (c : Char) : Bool :=
  let n := c.toNat
  n == 0x9 || n == 0xa || n == 0xd || decide (0x20 ≤ n ∧ n ≤ 0x7e) || n == 0x85
    || decide (0xa0 ≤ n ∧ n ≤ 0xd7ff) || decide (0xe000 ≤ n ∧ n ≤ 0xfffd) || decide (0x10000 ≤ n)

/-- The mark that may stand at the start of a text and takes no column. -/
def byteOrderMark : Char := '\ufeff'

/-- A marker of three equal characters that stands alone between documents. -/
def isMarker (cs : List Char) : Bool :=
  match cs with
  | '-' :: '-' :: '-' :: rest => endsWord rest
  | '.' :: '.' :: '.' :: rest => endsWord rest
  | _ => false

/-- The line break that a text starts with, as it is read, and what follows it. -/
def lineBreak? : List Char → Option (Char × List Char)
  | '\r' :: '\n' :: rest => some ('\n', rest)
  | c :: rest =>
    if c == '\n' || c == '\r' || c == '\u0085' then some ('\n', rest)
    else if c == '\u2028' || c == '\u2029' then some (c, rest)
    else none
  | [] => none

/-! ## Cursors -/

/-- What is left of a text, and where it starts. -/
structure Cursor where
  rest : List Char
  index : Nat := 0
  line : Nat := 0
  column : Nat := 0

namespace Cursor

/-- The cursor after one character; a carriage return counts as part of a line feed after it. -/
def next (c : Cursor) : Cursor :=
  match c.rest with
  | [] => c
  | ch :: rest =>
    if ch == '\r' && rest.head? != some '\n' || isBreak ch && ch != '\r' then
      { rest, index := c.index + 1, line := c.line + 1, column := 0 }
    else if ch == byteOrderMark then { c with rest, index := c.index + 1 }
    else { c with rest, index := c.index + 1, column := c.column + 1 }

/-- The cursor after so many characters. -/
def advance (c : Cursor) : Nat → Cursor
  | 0 => c
  | n + 1 => c.next.advance n

/-- The cursor at what is left of its text. -/
def moveTo (c : Cursor) (rest : List Char) : Cursor := c.advance (c.rest.length - rest.length)

end Cursor

end ChartStyle.Yaml
