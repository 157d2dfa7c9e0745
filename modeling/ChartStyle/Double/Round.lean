import ChartStyle.Double.Basic

/-!
# Rounding exact ratios to binary64

`Double.nearest` rounds an exact ratio of units to the nearest double, a tie going to the even
place. A significand that rounds up to the next power of two needs no special case: its place is
the first place of the next binade, and a place past the last one is an infinity.
-/

set_option autoImplicit false

namespace ChartStyle

/-- The whole number nearest to `n / d`, the even one of two equally near. -/
def roundHalfEven (n d : Nat) : Nat :=
  let rest := 2 * (n % d)
  if rest < d then n / d
  else if d < rest then n / d + 1
  else n / d + n / d % 2

namespace Double

/-- The double nearest to `n / d` units, with the given sign. -/
def nearest (negative : Bool) (n d : Nat) : Double :=
  let shift := (n / d).log2 - 52
  let place := shift * binade + roundHalfEven n (d <<< shift)
  if h : place < placeCount then .finite negative ⟨place, h⟩ else .infinite negative

/-- The double nearest to the signed ratio `n / d` units; an exact zero has the sign `zeroSign`. -/
def ofUnits (n : Int) (d : Nat) (zeroSign : Bool) : Double :=
  nearest (if n = 0 then zeroSign else decide (n < 0)) n.natAbs d

/-- The double nearest to `n / d`, with the given sign. -/
def ofRatio (negative : Bool) (n d : Nat) : Double := nearest negative (n * unitsPerOne) d

/-- The double nearest to a whole number, an infinity when it lies beyond the range. -/
def ofInt : Int → Double
  | .ofNat n => ofRatio false n 1
  | .negSucc n => ofRatio true (n + 1) 1

/-- The double nearest to a whole number, when that is finite. -/
def ofInt? (n : Int) : Option Double :=
  let x := ofInt n
  if x.isFinite then some x else none

/-- The double nearest to a whole number written without a sign. -/
def ofNat (n : Nat) : Double := ofRatio false n 1

instance (n : Nat) : OfNat Double n := ⟨ofNat n⟩

/-- The double nearest to `digits * 10 ^ exponent`. Exponents so large or so small that the
answer is an infinity or zero for every significand of that length are settled first, so the
powers of ten that are formed stay small. -/
def ofDecimal (negative : Bool) (digits : Nat) (exponent : Int) : Double :=
  let top := (Nat.toDigits 10 digits).length + exponent
  if digits = 0 then signedZero negative
  else if 400 < top then .infinite negative
  else if top < -400 then signedZero negative
  else if 0 ≤ exponent then ofRatio negative (digits * Nat.pow 10 exponent.toNat) 1
  else ofRatio negative digits (Nat.pow 10 (-exponent).toNat)

end Double

end ChartStyle
