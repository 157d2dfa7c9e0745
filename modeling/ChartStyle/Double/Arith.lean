import ChartStyle.Double.Round

/-!
# Binary64 arithmetic

Each operation takes the exact result in units and rounds it once. `Double.floorMod` is the
remainder with the sign of the (positive) divisor, the one that turns an angle into the range of
a circle.
-/

set_option autoImplicit false

namespace ChartStyle.Double

/-- The sum, correctly rounded. -/
def add : Double → Double → Double
  | .nan, _ => .nan
  | _, .nan => .nan
  | .infinite a, .infinite b => if a = b then .infinite a else .nan
  | .infinite a, .finite _ _ => .infinite a
  | .finite _ _, .infinite b => .infinite b
  | x@(.finite a _), y@(.finite b _) => ofUnits (x.units + y.units) 1 (a && b)

/-- The difference, correctly rounded. -/
def sub (x y : Double) : Double := x.add y.neg

/-- The product, correctly rounded. -/
def mul : Double → Double → Double
  | .nan, _ => .nan
  | _, .nan => .nan
  | .infinite a, y => if y.isZero then .nan else .infinite (a != y.isNegative)
  | x, .infinite b => if x.isZero then .nan else .infinite (x.isNegative != b)
  | x@(.finite a _), y@(.finite b _) =>
      nearest (a != b) (x.units.natAbs * y.units.natAbs) unitsPerOne

/-- The quotient, correctly rounded. -/
def div : Double → Double → Double
  | .nan, _ => .nan
  | _, .nan => .nan
  | .infinite _, .infinite _ => .nan
  | .infinite a, .finite b _ => .infinite (a != b)
  | .finite a _, .infinite b => signedZero (a != b)
  | x@(.finite a _), y@(.finite b _) =>
      if y.isZero then (if x.isZero then .nan else .infinite (a != b))
      else nearest (a != b) (x.units.natAbs * unitsPerOne) y.units.natAbs

/-- The remainder of the division by a positive whole number, in `[0, modulus]`: exact for the
whole units, then rounded. A number that is not finite has none. -/
def floorMod (x : Double) (modulus : Nat) : Double :=
  if x.isFinite then ofUnits (x.units % (modulus * unitsPerOne : Nat)) 1 false else .nan

instance : Add Double := ⟨add⟩
instance : Sub Double := ⟨sub⟩
instance : Mul Double := ⟨mul⟩
instance : Div Double := ⟨div⟩
instance : Neg Double := ⟨neg⟩

/-- The number rounded to so many decimal places, a half going to the even neighbour; the
rounded decimal is then read as a double. -/
def roundPlaces (places : Nat) : Double → Double
  | x@(.finite negative _) =>
      ofRatio negative (roundHalfEven (x.units.natAbs * Nat.pow 10 places) unitsPerOne)
        (Nat.pow 10 places)
  | x => x

end ChartStyle.Double
