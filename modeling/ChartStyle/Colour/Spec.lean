import ChartStyle.Colour.Names
import ChartStyle.Double.Arith
import ChartStyle.Value.Entries

/-!
# Colour specifications

A palette gives a colour as a name, as `#rgb` or `#rrggbb` (with or without a transparency, which
is dropped), as a grey between `0` and `1` in a text, or as a list of three or four numbers from
zero to one. `Colour.hex?` turns each into lower-case `#rrggbb`.
-/

set_option autoImplicit false

namespace ChartStyle.Colour

/-- The text `#rrggbb` of a colour. -/
def toHex (colour : Nat) : String := String.ofList ('#' :: Text.hexDigits 6 colour)

/-- The colour of three bytes. -/
def ofBytes (red green blue : Nat) : Nat := (red * 256 + green) * 256 + blue

/-- The value of a hexadecimal digit. -/
def hexValue? (c : Char) : Option Nat :=
  if c.isDigit then some (c.toNat - '0'.toNat)
  else if 'a' ≤ c ∧ c ≤ 'f' then some (c.toNat - 'a'.toNat + 10)
  else if 'A' ≤ c ∧ c ≤ 'F' then some (c.toNat - 'A'.toNat + 10)
  else none

/-- The colour of the digits after a `#`: one or two for each of red, green, blue and, if given,
the transparency. -/
def ofHexDigits? (digits : List Nat) : Option Nat :=
  match digits with
  | [r, g, b] | [r, g, b, _] => some (ofBytes (17 * r) (17 * g) (17 * b))
  | [r, r', g, g', b, b'] | [r, r', g, g', b, b', _, _] =>
    some (ofBytes (16 * r + r') (16 * g + g') (16 * b + b'))
  | _ => none

/-- The byte of a channel between zero and one, a half going to the even neighbour. -/
def channelByte? (x : Double) : Option Nat :=
  if Double.lessEq 0 x && Double.lessEq x 1 then
    some (roundHalfEven (x * 255).units.natAbs Double.unitsPerOne)
  else none

/-- A name in lower case; of the letters beyond ASCII only the sign for kelvin has a lower case
that occurs in names. -/
def lowerName (name : String) : String :=
  String.ofList (name.toList.map fun c => if c = '\u212a' then 'k' else c.toLower)

/-- The position in the plotting cycle that `C` and digits give. -/
def cyclePosition? (cs : List Char) : Option Nat :=
  match cs with
  | 'C' :: digit :: digits =>
    if (digit :: digits).all Char.isDigit then
      some (Text.digitsValue ((digit :: digits).filterMap Text.decimalValue?))
    else none
  | _ => none

/-- The colour that a name stands for: as it is written or, when longer than one letter, in lower
case. -/
def ofName? (name : String) : Option Nat :=
  (named? name).or (if name.length = 1 then none else named? (lowerName name))

/-- The colour that a text specifies. -/
def ofText? (s : String) : Option Nat :=
  match cyclePosition? s.toList with
  | some position => cycle[position % cycle.length]?
  | none =>
    if lowerName s = "none" then some 0
    else
      match ofName? s with
      | some colour => some colour
      | none =>
        match s.toList with
        | '#' :: digits => (digits.mapM hexValue?).bind ofHexDigits?
        | _ => do
          let byte ← channelByte? (← Text.readDouble? s)
          return ofBytes byte byte byte

/-- A channel of a list; only numbers are channels. -/
def channel? (v : Value) : Option Value := if v.number?.isSome then some v else none

/-- The colour of three channels, with or without a transparency. A whole number beyond the range
of the doubles is a fault. -/
def ofChannels? (items : List Value) : Except Fault (Option Nat) :=
  if items.length ≠ 3 ∧ items.length ≠ 4 then .ok none
  else
    match items.mapM channel? with
    | none => .ok none
    | some channels => do
      let numbers ← channels.mapM Value.toDouble
      return match numbers.mapM checked? with
        | some (r :: g :: b :: _) => do
          return ofBytes (← channelByte? r) (← channelByte? g) (← channelByte? b)
        | _ => none
where
  /-- A channel that is not out of range; a transparency may also be a not-a-number. -/
  checked? (x : Double) : Option Double :=
    if x.less 0 || Double.less 1 x then none else some x

/-- The text `#rrggbb` of what a palette gives as a colour, none when that is no colour. -/
def hex? (v : Value) : Except Fault (Option String) :=
  match v with
  | .text s => .ok ((ofText? s).map toHex)
  | .list _ | .map _ => do return (← ofChannels? (← v.items)).map toHex
  | _ => .ok none

end ChartStyle.Colour
