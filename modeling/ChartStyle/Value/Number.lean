import ChartStyle.Fault
import ChartStyle.Text.Number
import ChartStyle.Value.Show

/-!
# Values as numbers

Turning a value into a double or a whole number, and comparing numbers exactly: a whole number
of any size against a double without rounding either.
-/

set_option autoImplicit false

namespace ChartStyle

/-- A whole number or a double. -/
inductive Number where
  | whole (n : Int)
  | real (x : Double)
  deriving DecidableEq

namespace Number

/-- The number as a value. -/
def toValue : Number → Value
  | .whole n => .int n
  | .real x => .real x

/-- The whole number `n` is less than `x`. -/
def wholeLess (n : Int) (x : Double) : Bool :=
  match x with
  | .nan => false
  | .infinite negative => !negative
  | .finite _ _ => decide (n * Double.unitsPerOne < x.units)

/-- The number `x` is less than the whole number `n`. -/
def lessWhole (x : Double) (n : Int) : Bool :=
  match x with
  | .nan => false
  | .infinite negative => negative
  | .finite _ _ => decide (x.units < n * Double.unitsPerOne)

/-- Strictly less; a not-a-number is less than nothing. -/
def less : Number → Number → Bool
  | .whole m, .whole n => decide (m < n)
  | .whole m, .real y => wholeLess m y
  | .real x, .whole n => lessWhole x n
  | .real x, .real y => x.less y

/-- The number is a not-a-number. -/
def isNan : Number → Bool
  | .real .nan => true
  | _ => false

/-- Less or equal; a not-a-number compares with nothing. -/
def lessEq (a b : Number) : Bool := !a.isNan && !b.isNan && !b.less a

/-- Equal in value; a not-a-number equals nothing. -/
def same (a b : Number) : Bool := a.lessEq b && b.lessEq a

end Number

namespace Value

/-- The number that a value is; truth values count as one and zero. -/
def number? : Value → Option Number
  | .bool b => some (.whole (if b then 1 else 0))
  | .int n => some (.whole n)
  | .real x => some (.real x)
  | _ => none

/-- The number to compare another with. -/
def comparable (v : Value) : Except Fault Number :=
  match v.number? with
  | some number => .ok number
  | none => .error (.data (.notComparable "float" v.kindName))

/-- The value as a double: a number, or a text that reads as one. -/
def toDouble : Value → Except Fault Double
  | .real x => .ok x
  | .bool b => .ok (if b then 1 else 0)
  | .int n =>
      match Double.ofInt? n with
      | some x => .ok x
      | none => .error (.data .intTooLarge)
  | .text s =>
      match Text.readDouble? s with
      | some x => .ok x
      | none => .error (.data (.unreadableReal s))
  | v => .error (.data (.notANumber .real v.kindName))

/-- A double cut toward zero to a whole number. -/
def wholePart : Double → Except Fault Int
  | .nan => .error (.data .nanToInt)
  | .infinite _ => .error (.data .infinityToInt)
  | x => .ok x.truncate

/-- The value as a whole number: a number cut toward zero, or a text that reads as a whole
number. -/
def toInt : Value → Except Fault Int
  | .int n => .ok n
  | .bool b => .ok (if b then 1 else 0)
  | .real x => wholePart x
  | .text s =>
      match Text.readInt? s with
      | some n => .ok n
      | none => .error (.data (.unreadableInt s))
  | v => .error (.data (.notANumber .whole v.kindName))

/-- Equal as keys of one mapping: texts by their characters, numbers by value, else by kind. -/
def sameKey : Value → Value → Bool
  | .text a, .text b => a == b
  | .null, .null => true
  | .perFeature, .perFeature => true
  | a, b =>
      match a.number?, b.number? with
      | some m, some n => m.same n
      | _, _ => false

end Value

end ChartStyle
