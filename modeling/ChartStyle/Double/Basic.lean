/-!
# Binary64 numbers

A double is a not-a-number, an infinity, or a finite number given by its sign and its place on
the grid of magnitudes. Places count the magnitudes from zero upwards, so the order of the
places is the order of the magnitudes, and every finite double is a whole number of units of
`2 ^ (-1074)` (`Double.units`). All arithmetic of the library is exact arithmetic on units
followed by one rounding.
-/

set_option autoImplicit false

namespace ChartStyle

/-- The number of finite magnitudes, zero included. -/
def Double.placeCount : Nat := 0x7FF0000000000000

/-- An IEEE 754 binary64 number; the payload of a not-a-number is not kept. -/
inductive Double where
  | nan
  | infinite (negative : Bool)
  | finite (negative : Bool) (place : Fin Double.placeCount)
  deriving DecidableEq

namespace Double

/-! ## The grid of magnitudes -/

/-- The number of places in one binade. -/
def binade : Nat := 0x10000000000000

/-- The spacing of the grid at a place is two to this power, in units. -/
def shiftAt (place : Nat) : Nat := place / binade - 1

/-- The significand of the magnitude at a place: the hidden bit is set from the second binade on. -/
def significandAt (place : Nat) : Nat :=
  if place < binade then place else binade + place % binade

/-- The magnitude at a place, in units of `2 ^ (-1074)`. -/
def magnitudeAt (place : Nat) : Nat := significandAt place <<< shiftAt place

/-- How many units make one. -/
def unitsPerOne : Nat := 1 <<< 1074

/-- The zero with the given sign. -/
def signedZero (negative : Bool) : Double := .finite negative ⟨0, by decide⟩

/-- Positive zero. -/
def zero : Double := signedZero false

instance : Inhabited Double := ⟨zero⟩

/-- The value in units; the numbers that are not finite have none and count as zero. -/
def units : Double → Int
  | .finite false place => magnitudeAt place
  | .finite true place => -(magnitudeAt place : Int)
  | _ => 0

/-! ## Shape -/

/-- A finite number. -/
def isFinite : Double → Bool
  | .finite _ _ => true
  | _ => false

/-- The sign bit; a not-a-number has none. -/
def isNegative : Double → Bool
  | .nan => false
  | .infinite negative => negative
  | .finite negative _ => negative

/-- A zero of either sign. -/
def isZero : Double → Bool
  | .finite _ place => place.val == 0
  | _ => false

/-- The number with the sign turned. -/
def neg : Double → Double
  | .nan => .nan
  | .infinite negative => .infinite !negative
  | .finite negative place => .finite (!negative) place

/-- The number without its sign. -/
def abs : Double → Double
  | .nan => .nan
  | .infinite _ => .infinite false
  | .finite _ place => .finite false place

/-- A finite number without a fractional part. -/
def isWhole : Double → Bool
  | x@(.finite _ _) => x.units % unitsPerOne == 0
  | _ => false

/-- The number cut toward zero to a whole number; the numbers that are not finite give zero. -/
def truncate (x : Double) : Int := x.units.tdiv unitsPerOne

/-! ## Order -/

/-- A key whose order is the order of the numbers: both zeros share one key, and the infinities
lie one step beyond the finite numbers. -/
def rank : Double → Int
  | .nan => 0
  | .infinite false => placeCount
  | .infinite true => -(placeCount : Int)
  | .finite false place => place.val
  | .finite true place => -(place.val : Int)

/-- Strictly less; nothing compares with a not-a-number. -/
def less (x y : Double) : Bool := x != .nan && y != .nan && decide (x.rank < y.rank)

/-- Less or equal; nothing compares with a not-a-number. -/
def lessEq (x y : Double) : Bool := x != .nan && y != .nan && decide (x.rank ≤ y.rank)

/-- Equal as numbers: the zeros are equal, a not-a-number differs from itself. -/
def same (x y : Double) : Bool := x != .nan && y != .nan && decide (x.rank = y.rank)

end Double

end ChartStyle
