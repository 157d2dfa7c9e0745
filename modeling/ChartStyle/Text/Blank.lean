/-!
# Blanks

The white space of the library: `Text.trim` takes it off both ends of a text. Around a number
the four information separators of ASCII are not blank (`Text.isNumberBlank`).
-/

set_option autoImplicit false

namespace ChartStyle.Text

/-- White space of any script, the information separators of ASCII included. -/
def isBlank (c : Char) : Bool :=
  let n := c.toNat
  decide (9 ≤ n ∧ n ≤ 13) || decide (0x1c ≤ n ∧ n ≤ 0x20) || n == 0x85 || n == 0xa0
    || n == 0x1680 || decide (0x2000 ≤ n ∧ n ≤ 0x200a) || n == 0x2028 || n == 0x2029
    || n == 0x202f || n == 0x205f || n == 0x3000

/-- White space that may surround a number. -/
def isNumberBlank (c : Char) : Bool := isBlank c && !decide (0x1c ≤ c.toNat ∧ c.toNat < 0x20)

/-- The characters without the longest run of `p` at either end. -/
def stripWhile (p : Char → Bool) (cs : List Char) : List Char :=
  ((cs.dropWhile p).reverse.dropWhile p).reverse

/-- The characters without blanks at either end. -/
def trim (cs : List Char) : List Char := stripWhile isBlank cs

/-- The text without blanks at either end. -/
def trimmed (s : String) : String := String.ofList (trim s.toList)

/-- The text holds nothing but blanks. -/
def isBlankText (s : String) : Bool := s.toList.all isBlank

end ChartStyle.Text
