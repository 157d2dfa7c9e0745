import ChartStyle.Text.Number
import ChartStyle.Value.Entries

/-!
# Reading JSON

`Json.read` reads a JSON text into a value. Entries keep the order of the text; of two entries
with one key the later value takes the place of the earlier one. A number without fraction and
exponent is a whole number of any size. Besides the standard's values there are `NaN`, `Infinity`
and `-Infinity`. Reading is bounded by the length of the text.
-/

set_option autoImplicit false

namespace ChartStyle.Json

/-- The characters that may stand between tokens. -/
def isBlank (c : Char) : Bool := c == ' ' || c == '\t' || c == '\n' || c == '\r'

/-- What follows the blanks. -/
def skip (cs : List Char) : List Char := cs.dropWhile isBlank

/-! ## Strings -/

/-- The value of a hexadecimal digit. -/
def hexValue? (c : Char) : Option Nat :=
  if c.isDigit then some (c.toNat - '0'.toNat)
  else if 'a' ≤ c ∧ c ≤ 'f' then some (c.toNat - 'a'.toNat + 10)
  else if 'A' ≤ c ∧ c ≤ 'F' then some (c.toNat - 'A'.toNat + 10)
  else none

/-- The value of four hexadecimal digits. -/
def hex4? (a b c d : Char) : Option Nat := do
  return 4096 * (← hexValue? a) + 256 * (← hexValue? b) + 16 * (← hexValue? c) + (← hexValue? d)

/-- The character that a one-letter escape stands for. -/
def escaped? (c : Char) : Option Char :=
  if c = '"' ∨ c = '\\' ∨ c = '/' then some c
  else if c = 'b' then some '\x08'
  else if c = 'f' then some '\x0c'
  else if c = 'n' then some '\n'
  else if c = 'r' then some '\r'
  else if c = 't' then some '\t'
  else none

/-- The code units of a string up to its closing quote, and what follows the quote. -/
def units? : List Char → Option (List Nat × List Char)
  | [] => none
  | '"' :: rest => some ([], rest)
  | '\\' :: 'u' :: a :: b :: c :: d :: rest => do
    let unit ← hex4? a b c d
    let (units, after) ← units? rest
    return (unit :: units, after)
  | '\\' :: c :: rest => do
    let e ← escaped? c
    let (units, after) ← units? rest
    return (e.toNat :: units, after)
  | c :: rest =>
    if c.toNat < 0x20 ∨ c = '\\' then none
    else do
      let (units, after) ← units? rest
      return (c.toNat :: units, after)

/-- The first half of a surrogate pair. -/
def isHigh (unit : Nat) : Bool := decide (0xd800 ≤ unit ∧ unit < 0xdc00)

/-- The second half of a surrogate pair. -/
def isLow (unit : Nat) : Bool := decide (0xdc00 ≤ unit ∧ unit < 0xe000)

/-- The character of a code unit; half a pair on its own has the replacement character. -/
def charOf (unit : Nat) : Char :=
  if isHigh unit || isLow unit then '\ufffd' else Char.ofNat unit

/-- The characters of code units, pairs joined. -/
def joinPairs : List Nat → List Char
  | [] => []
  | [unit] => [charOf unit]
  | high :: low :: rest =>
    if isHigh high && isLow low then
      Char.ofNat (0x10000 + (high - 0xd800) * 0x400 + (low - 0xdc00)) :: joinPairs rest
    else charOf high :: joinPairs (low :: rest)

/-- A string after its opening quote. -/
def string? (cs : List Char) : Option (String × List Char) :=
  (units? cs).map fun (units, rest) => (String.ofList (joinPairs units), rest)

/-! ## Numbers -/

/-- The digits before the point: a zero alone, or digits that do not start with one. -/
def wholeDigits? : List Char → Option (List Char × List Char)
  | '0' :: rest => some (['0'], rest)
  | cs =>
    match cs.takeWhile Char.isDigit with
    | [] => none
    | digits => some (digits, cs.dropWhile Char.isDigit)

/-- The digits after a point, and what follows them; a point without digits is not read. -/
def fraction : List Char → List Char × List Char
  | '.' :: rest =>
    match rest.takeWhile Char.isDigit with
    | [] => ([], '.' :: rest)
    | digits => (digits, rest.dropWhile Char.isDigit)
  | cs => ([], cs)

/-- The value of digits. -/
def digitsValue (digits : List Char) : Nat := Text.digitsValue (digits.map (·.toNat - '0'.toNat))

/-- The exponent, when there is one with digits, and what follows it. -/
def exponent? (cs : List Char) : Option (Int × List Char) :=
  match cs with
  | e :: rest =>
    if e = 'e' ∨ e = 'E' then
      let (negative, after) := Text.signed rest
      match after.takeWhile Char.isDigit with
      | [] => none
      | digits =>
        let n : Int := digitsValue digits
        some (if negative then -n else n, after.dropWhile Char.isDigit)
    else none
  | [] => none

/-- A number. -/
def number? (cs : List Char) : Option (Value × List Char) := do
  let (negative, unsigned) :=
    match cs with
    | '-' :: rest => (true, rest)
    | cs => (false, cs)
  let (whole, rest) ← wholeDigits? unsigned
  let (places, rest) := fraction rest
  let real (exponent : Int) : Value :=
    .real (Double.ofDecimal negative (digitsValue (whole ++ places)) (exponent - places.length))
  match exponent? rest with
  | some (exponent, rest) => return (real exponent, rest)
  | none =>
    if places.isEmpty then
      let n : Int := digitsValue whole
      return (.int (if negative then -n else n), rest)
    else return (real 0, rest)

/-! ## Values -/

/-- The values that are written as words. -/
def words : List (List Char × Value) :=
  [("null".toList, .null), ("true".toList, .bool true), ("false".toList, .bool false),
    ("NaN".toList, .real .nan), ("Infinity".toList, .real (.infinite false)),
    ("-Infinity".toList, .real (.infinite true))]

/-- A word that the text starts with. -/
def word? (cs : List Char) : Option (Value × List Char) :=
  (words.find? fun (word, _) => word.isPrefixOf cs).map fun (word, v) => (v, cs.drop word.length)

mutual

/-- A value, and what follows it. -/
def value? : Nat → List Char → Option (Value × List Char)
  | 0, _ => none
  | fuel + 1, cs =>
    match cs with
    | '"' :: rest => (string? rest).map fun (s, after) => (.text s, after)
    | '[' :: rest =>
      match skip rest with
      | ']' :: after => some (.list [], after)
      | rest => (items? fuel rest).map fun (items, after) => (.list items, after)
    | '\x7b' :: rest =>
      match skip rest with
      | '\x7d' :: after => some (.map [], after)
      | rest => (entries? fuel rest).map fun (entries, after) =>
          (.map (Entries.ofPairs entries), after)
    | cs => (word? cs).or (number? cs)

/-- The items of a list up to its closing bracket. -/
def items? : Nat → List Char → Option (List Value × List Char)
  | 0, _ => none
  | fuel + 1, cs => do
    let (v, rest) ← value? fuel cs
    match skip rest with
    | ',' :: rest =>
      let (items, after) ← items? fuel (skip rest)
      return (v :: items, after)
    | ']' :: after => return ([v], after)
    | _ => none

/-- The entries of a mapping up to its closing brace. -/
def entries? : Nat → List Char → Option (List (Value × Value) × List Char)
  | 0, _ => none
  | fuel + 1, cs =>
    match cs with
    | '"' :: rest => do
      let (key, rest) ← string? rest
      match skip rest with
      | ':' :: rest =>
        let (v, rest) ← value? fuel (skip rest)
        match skip rest with
        | ',' :: rest =>
          let (entries, after) ← entries? fuel (skip rest)
          return ((.text key, v) :: entries, after)
        | '\x7d' :: after => return ([(.text key, v)], after)
        | _ => none
      | _ => none
    | _ => none

end

/-- The value of a JSON text; a text that is not JSON, or goes on after the value, is an error. -/
def read (s : String) : Except Fault Value :=
  match value? (s.toList.length + 1) (skip s.toList) with
  | some (v, rest) => if (skip rest).isEmpty then .ok v else .error .malformedJson
  | none => .error .malformedJson

/-- A text that is not read is malformed. -/
theorem read_eq_error {s : String} {fault : Fault} (h : read s = .error fault) :
    fault = .malformedJson := by
  unfold read at h
  split at h
  · split at h <;> cases h
    rfl
  · cases h
    rfl

end ChartStyle.Json
