/-!
# Splitting outside quotes

Instruction strings are split at semicolons and argument lists at commas, but never inside a
quoted string or inside parentheses. The scan keeps the open quote and the depth of the
parentheses, which may become negative; `splitOutsideQuotes` has no answer exactly when a quote
is left open.
-/

set_option autoImplicit false

namespace ChartStyle

/-- Where a scan of an instruction string stands. -/
structure Scan where
  /-- The quote that is open. -/
  quote : Option Char
  /-- Opened less closed parentheses, outside quotes. -/
  depth : Int
  deriving DecidableEq

namespace Scan

/-- The start of a text. -/
def start : Scan := ⟨none, 0⟩

/-- A character that opens a quoted string. -/
def isQuote (c : Char) : Bool := c == '\'' || c == '"'

/-- The scan after one more character. -/
def next (s : Scan) (c : Char) : Scan :=
  match s.quote with
  | some q => if c == q then { s with quote := none } else s
  | none =>
    if isQuote c then { s with quote := some c }
    else if c == '(' then { s with depth := s.depth + 1 }
    else if c == ')' then { s with depth := s.depth - 1 }
    else s

/-- The character is a separator at which the text is cut. -/
def cutsAt (s : Scan) (separator c : Char) : Bool :=
  c == separator && s.quote.isNone && s.depth == 0 && !isQuote c && c != '(' && c != ')'

end Scan

/-- The parts of a text that is scanned from some state on. -/
def splitFrom (separator : Char) : Scan → List Char → Option (List (List Char))
  | s, [] => if s.quote.isNone then some [[]] else none
  | s, c :: cs =>
    if s.cutsAt separator c then (splitFrom separator s cs).map ([] :: ·)
    else (splitFrom separator (s.next c) cs).map (List.modifyHead (c :: ·))

/-- The parts of a text between the separators outside quotes and parentheses. -/
def splitOutsideQuotes (separator : Char) (cs : List Char) : Option (List (List Char)) :=
  splitFrom separator .start cs

end ChartStyle
