import ChartStyle.Double.Arith
import ChartStyle.Text.Number
import ChartStyle.Value.Basic

/-!
# Plain scalars

A scalar without quotes is read by its shape: null, a truth value, a whole number in one of five
notations, a double, which always has a point, or else a text. `scalarKind` names the shape;
a writer needs quotes exactly where it is not that of a text.
-/

set_option autoImplicit false

namespace ChartStyle.Yaml

/-- The shapes of a plain scalar. -/
inductive ScalarKind where
  | null
  | bool
  | int
  | real
  /-- A date, or a date with a time; such a scalar is read as a text. -/
  | date
  /-- One of the two signs that are kept for merging and defaults. -/
  | reserved
  | text
  deriving DecidableEq

/-! ## Shapes -/

/-- The spellings of null. -/
def nullNames : List String := ["", "~", "null", "Null", "NULL"]

/-- The spellings of true. -/
def trueNames : List String :=
  ["yes", "Yes", "YES", "true", "True", "TRUE", "on", "On", "ON"]

/-- The spellings of false. -/
def falseNames : List String :=
  ["no", "No", "NO", "false", "False", "FALSE", "off", "Off", "OFF"]

/-- A digit or an underscore. -/
def isFigure (c : Char) : Bool := c.isDigit || c == '_'

/-- The characters of a number after its sign. -/
def unsigned (cs : List Char) : List Char := (Text.signed cs).2

/-- One or two digits below sixty, as in the parts of a time. -/
def isSixtieth (cs : List Char) : Bool :=
  match cs with
  | [a] => a.isDigit
  | [a, b] => decide ('0' ≤ a ∧ a ≤ '5') && b.isDigit
  | _ => false

/-- The parts between colons. -/
def colonParts : List Char → List (List Char)
  | [] => [[]]
  | c :: cs =>
    if c = ':' then [] :: colonParts cs
    else (colonParts cs).modifyHead (c :: ·)

/-- A whole number in sixtieths, as in `1:30`. -/
def isSexagesimal (cs : List Char) : Bool :=
  match colonParts cs with
  | (d :: ds) :: part :: parts =>
    decide ('1' ≤ d ∧ d ≤ '9') && ds.all isFigure && (part :: parts).all isSixtieth
  | _ => false

/-- A whole number: decimal, binary, octal, hexadecimal or in sixtieths. -/
def isInt (cs : List Char) : Bool :=
  match unsigned cs with
  | ['0'] => true
  | '0' :: 'b' :: ds => !ds.isEmpty && ds.all fun c => c == '0' || c == '1' || c == '_'
  | '0' :: 'x' :: ds =>
    !ds.isEmpty && ds.all fun c =>
      isFigure c || decide ('a' ≤ c ∧ c ≤ 'f') || decide ('A' ≤ c ∧ c ≤ 'F')
  | '0' :: ds => ds.all fun c => decide ('0' ≤ c ∧ c ≤ '7') || c == '_'
  | d :: ds =>
    (decide ('1' ≤ d ∧ d ≤ '9') && ds.all isFigure) || isSexagesimal (d :: ds)
  | [] => false

/-- An exponent with its sign, or nothing. -/
def isExponent (cs : List Char) : Bool :=
  match cs with
  | [] => true
  | e :: sign :: ds =>
    (e == 'e' || e == 'E') && (sign == '+' || sign == '-') && !ds.isEmpty && ds.all Char.isDigit
  | _ => false

/-- Digits in front of a point, and what follows them. -/
def isDecimalPoint (cs : List Char) : Bool :=
  match cs with
  | d :: ds =>
    d.isDigit &&
      match ds.dropWhile isFigure with
      | '.' :: rest => isExponent (rest.dropWhile isFigure)
      | _ => false
  | [] => false

/-- A number in sixtieths with a fraction, as in `1:30.5`. -/
def isSexagesimalReal (cs : List Char) : Bool :=
  match cs with
  | d :: _ =>
    d.isDigit &&
      match cs.reverse.dropWhile isFigure with
      | '.' :: before =>
        match colonParts before.reverse with
        | (e :: es) :: part :: parts =>
          e.isDigit && es.all isFigure && (part :: parts).all isSixtieth
        | _ => false
      | _ => false
  | [] => false

/-- A double: with a point, in sixtieths with a point, infinite, or not a number. -/
def isReal (cs : List Char) : Bool :=
  let body := String.ofList (unsigned cs)
  isDecimalPoint (unsigned cs) || isSexagesimalReal (unsigned cs)
    || [".inf", ".Inf", ".INF"].contains body
    || [".nan", ".NaN", ".NAN"].contains (String.ofList cs)
    || match cs with
      | '.' :: d :: ds => d.isDigit && isExponent (ds.dropWhile isFigure)
      | _ => false

/-- So many digits, one after the other. -/
def areDigits (cs : List Char) (least most : Nat) : Bool :=
  decide (least ≤ cs.length ∧ cs.length ≤ most) && cs.all Char.isDigit

/-- The time zone of a time, or nothing. -/
def isZone (cs : List Char) : Bool :=
  match cs.dropWhile fun c => c == ' ' || c == '\t' with
  | [] => cs.isEmpty
  | ['Z'] => true
  | sign :: rest =>
    (sign == '+' || sign == '-') &&
      match colonParts rest with
      | [hours] => areDigits hours 1 2
      | [hours, minutes] => areDigits hours 1 2 && areDigits minutes 2 2
      | _ => false

/-- A time with seconds, an optional fraction and an optional zone. -/
def isTime (cs : List Char) : Bool :=
  match colonParts cs with
  | hours :: minutes :: rest =>
    let seconds := [':'].intercalate rest
    let after := seconds.drop 2
    let zone :=
      match after with
      | '.' :: fraction => fraction.dropWhile Char.isDigit
      | _ => after
    areDigits hours 1 2 && areDigits minutes 2 2 && areDigits (seconds.take 2) 2 2 && isZone zone
  | _ => false

/-- A date, alone or with a time. -/
def isDate (cs : List Char) : Bool :=
  let year := cs.take 4
  let month := (cs.drop 5).takeWhile Char.isDigit
  let day := ((cs.drop 5).drop (month.length + 1)).takeWhile Char.isDigit
  let rest := ((cs.drop 5).drop (month.length + 1)).drop day.length
  let separated :=
    areDigits year 4 4 && cs[4]? == some '-' && (cs.drop 5)[month.length]? == some '-'
  let time :=
    match rest with
    | 't' :: time => isTime time
    | 'T' :: time => isTime time
    | c :: _ =>
      (c == ' ' || c == '\t') && isTime (rest.dropWhile fun c => c == ' ' || c == '\t')
    | [] => false
  separated
    && ((rest.isEmpty && areDigits month 2 2 && areDigits day 2 2)
      || (areDigits month 1 2 && areDigits day 1 2 && time))

/-- The shape of a plain scalar. -/
def scalarKind (s : String) : ScalarKind :=
  if (trueNames ++ falseNames).contains s then .bool
  else if isReal s.toList then .real
  else if isInt s.toList then .int
  else if s = "<<" ∨ s = "=" then .reserved
  else if nullNames.contains s then .null
  else if isDate s.toList then .date
  else .text

/-! ## Values -/

/-- The value of a digit in a base up to sixteen. -/
def figureValue (c : Char) : Nat :=
  if c.isDigit then c.toNat - '0'.toNat
  else if 'a' ≤ c then c.toNat - 'a'.toNat + 10
  else c.toNat - 'A'.toNat + 10

/-- The value of digits in a base. -/
def inBase (base : Nat) (cs : List Char) : Nat :=
  cs.foldl (fun n c => base * n + figureValue c) 0

/-- The value of the parts of a number in sixtieths. -/
def inSixtieths (parts : List (List Char)) : Nat :=
  parts.foldl (fun n part => 60 * n + inBase 10 part) 0

/-- The value of a whole number without its sign. -/
def magnitude (cs : List Char) : Nat :=
  match cs with
  | '0' :: 'b' :: ds => inBase 2 ds
  | '0' :: 'x' :: ds => inBase 16 ds
  | '0' :: ds => inBase 8 ds
  | ds => inSixtieths (colonParts ds)

/-- The value of a scalar that is a whole number. -/
def readInt (cs : List Char) : Int :=
  let (negative, digits) := Text.signed (cs.filter (· != '_'))
  if negative then -(magnitude digits : Int) else magnitude digits

/-- The value of the parts of a double in sixtieths, the last part first. -/
def sumSixtieths : Nat → List (List Char) → Double
  | _, [] => 0
  | unit, part :: parts =>
    (Double.ofInt unit).mul ((Text.readDouble? (String.ofList part)).getD 0)
      + sumSixtieths (60 * unit) parts

/-- The value of a scalar that is a double. -/
def readReal (cs : List Char) : Double :=
  let (negative, body) := Text.signed (cs.filter (· != '_'))
  let sign (x : Double) : Double := if negative then x.neg else x
  match body.map Char.toLower with
  | '.' :: 'i' :: _ => .infinite negative
  | '.' :: 'n' :: _ => .nan
  | lower =>
    match colonParts lower with
    | [digits] => sign ((Text.readDouble? (String.ofList digits)).getD 0)
    | parts => sign (sumSixtieths 1 parts.reverse)

/-- The value of a plain scalar; the reserved signs have none. -/
def readScalar? (s : String) : Option Value :=
  match scalarKind s with
  | .null => some .null
  | .bool => some (.bool (trueNames.contains s))
  | .int => some (.int (readInt s.toList))
  | .real => some (.real (readReal s.toList))
  | .reserved => none
  | .date | .text => some (.text s)

end ChartStyle.Yaml
