import ChartStyle.Double.Round
import ChartStyle.Text.Blank
import ChartStyle.Text.Digit

/-!
# Numbers in text

Reading whole numbers (`Text.readInt?`) and doubles (`Text.readDouble?`). Blanks may surround a
number, digits may come from any script, and single underscores may separate digits. A double
may also be an infinity or a not-a-number, written in any case.
-/

set_option autoImplicit false

namespace ChartStyle.Text

/-- The value of a row of digits. -/
def digitsValue (digits : List Nat) : Nat := digits.foldl (fun n digit => 10 * n + digit) 0

/-- The further digits of a run and what follows it: an underscore belongs to the run when a
digit follows. -/
def moreDigits : List Char → List Nat × List Char
  | [] => ([], [])
  | c :: cs =>
    match decimalValue? c with
    | some digit => let (digits, rest) := moreDigits cs; (digit :: digits, rest)
    | none =>
      if c == '_' then
        match cs with
        | [] => ([], [c])
        | d :: ds =>
          match decimalValue? d with
          | some digit => let (digits, rest) := moreDigits ds; (digit :: digits, rest)
          | none => ([], c :: cs)
      else ([], c :: cs)

/-- A run of digits that starts with one, and what follows it; no digits when it does not. -/
def digitRun : List Char → List Nat × List Char
  | [] => ([], [])
  | c :: cs =>
    match decimalValue? c with
    | some digit => let (digits, rest) := moreDigits cs; (digit :: digits, rest)
    | none => ([], c :: cs)

/-- An optional sign, true for minus, and what follows it. -/
def signed : List Char → Bool × List Char
  | '-' :: cs => (true, cs)
  | '+' :: cs => (false, cs)
  | cs => (false, cs)

/-- The characters with the letters of ASCII in lower case. -/
def lowerAscii (cs : List Char) : List Char := cs.map Char.toLower

/-- A whole number: a sign and digits. -/
def readInt? (s : String) : Option Int :=
  let (negative, rest) := signed (stripWhile isNumberBlank s.toList)
  match digitRun rest with
  | (digit :: digits, []) =>
      let n := digitsValue (digit :: digits)
      some (if negative then -n else n)
  | _ => none

/-- The exponent of a double, when there is one, up to the end of the text. -/
def readExponent? : List Char → Option Int
  | [] => some 0
  | c :: cs =>
    if c == 'e' || c == 'E' then
      let (negative, rest) := signed cs
      match digitRun rest with
      | (digit :: digits, []) =>
          let n := digitsValue (digit :: digits)
          some (if negative then -n else n)
      | _ => none
    else none

/-- The digits before and after the point, and what follows them. -/
def mantissa (cs : List Char) : List Nat × List Nat × List Char :=
  match digitRun cs with
  | (whole, '.' :: rest) => let (fraction, rest) := digitRun rest; (whole, fraction, rest)
  | (whole, rest) => (whole, [], rest)

/-- A double: a sign, then digits with an optional point and exponent, or one of the names. -/
def readDouble? (s : String) : Option Double :=
  let (negative, rest) := signed (stripWhile isNumberBlank s.toList)
  if lowerAscii rest = ['n', 'a', 'n'] then some .nan
  else if lowerAscii rest = ['i', 'n', 'f']
      ∨ lowerAscii rest = ['i', 'n', 'f', 'i', 'n', 'i', 't', 'y'] then some (.infinite negative)
  else
    match mantissa rest with
    | ([], [], _) => none
    | (whole, fraction, rest) =>
        (readExponent? rest).map fun exponent =>
          Double.ofDecimal negative (digitsValue (whole ++ fraction)) (exponent - fraction.length)

end ChartStyle.Text
