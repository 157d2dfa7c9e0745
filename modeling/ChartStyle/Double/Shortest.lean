import ChartStyle.Double.Round

/-!
# The shortest decimal of a double

`Double.shortest` gives the decimal with the fewest digits that reads back as the same double,
and of those the one nearest to it. For each digit count from one to seventeen it looks at the
two neighbours of the value on the grid of decimals with that many digits; the first grid with a
neighbour that reads back wins.
-/

set_option autoImplicit false

namespace ChartStyle

/-- The number `digits * 10 ^ exponent`. -/
structure Decimal where
  digits : Nat
  exponent : Int
  deriving DecidableEq

namespace Double

/-- The exponent of the leading digit of the positive ratio `n / d`: the greatest `e` with
`10 ^ e ≤ n / d`. -/
def leadingExponent (n d : Nat) : Int :=
  if d ≤ n then ((Nat.toDigits 10 (n / d)).length : Int) - 1
  else -((Nat.toDigits 10 ((d - 1) / n)).length : Int)

/-- The ratio `n / d` divided by `10 ^ exponent`, again as a ratio. -/
def scaleDown (n d : Nat) (exponent : Int) : Nat × Nat :=
  if 0 ≤ exponent then (n, d * Nat.pow 10 exponent.toNat)
  else (n * Nat.pow 10 (-exponent).toNat, d)

/-- The decimal reads as the magnitude of the double. -/
def readsBack (x : Double) (decimal : Decimal) : Bool :=
  ofDecimal x.isNegative decimal.digits decimal.exponent == x

/-- The neighbour of the double, on the grid of whole multiples of `10 ^ exponent`, that reads
back as it; the nearer one, or the even one of two equally near, when both do. -/
def neighbour? (x : Double) (exponent : Int) : Option Decimal :=
  let (n, d) := scaleDown x.units.natAbs unitsPerOne exponent
  let below : Decimal := ⟨n / d, exponent⟩
  let above : Decimal := ⟨n / d + 1, exponent⟩
  match readsBack x below, readsBack x above with
  | true, true => some ⟨roundHalfEven n d, exponent⟩
  | true, false => some below
  | false, true => some above
  | false, false => none

/-- Every unit is a multiple of `10 ^ (-1074)`. -/
def exactDecimal (x : Double) : Decimal := ⟨x.units.natAbs * Nat.pow 5 1074, -1074⟩

/-- The nearest of the shortest decimals that read back as the magnitude of a finite double. -/
def shortest (x : Double) : Decimal :=
  if x.isZero then ⟨0, 0⟩
  else
    let lead := leadingExponent x.units.natAbs unitsPerOne
    ((List.range 17).findSome? fun (further : Nat) => neighbour? x (lead - further)).getD
      x.exactDecimal

/-- The magnitude of a finite double rounded to so many significant digits, a half going to the
even neighbour. -/
def significant (count : Nat) (x : Double) : Decimal :=
  if x.isZero then ⟨0, 0⟩
  else
    let exponent := leadingExponent x.units.natAbs unitsPerOne - ((count : Int) - 1)
    let (n, d) := scaleDown x.units.natAbs unitsPerOne exponent
    ⟨roundHalfEven n d, exponent⟩

end Double

end ChartStyle
