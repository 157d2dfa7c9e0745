import ChartStyle.Double.Shortest

/-!
# How numbers are written

A `Layout` says which decimals are written out in full and which with an exponent. Values are
written by `Layout.full`, the figures of depths and light descriptions by `Layout.figure`. Both
write the exponent with a sign and at least two digits, and both change to it below `1e-4`.
-/

set_option autoImplicit false

namespace ChartStyle

/-- The conventions for writing a decimal. -/
structure Layout where
  /-- From this exponent of the leading digit on, the number is written with an exponent. -/
  scientificFrom : Int
  /-- What follows a number without fractional digits that is written out in full. -/
  wholeSuffix : String

namespace Layout

/-- Values are written in full below `1e16`, and a whole value keeps a fractional zero. -/
def full : Layout := ⟨16, ".0"⟩

/-- Figures have six significant digits, and a whole figure has no fraction. -/
def figure : Layout := ⟨6, ""⟩

/-- The digits of a decimal without the zeros at its end; zero keeps one. -/
def significantDigits (decimal : Decimal) : List Char :=
  match ((Nat.toDigits 10 decimal.digits).reverse.dropWhile (· == '0')).reverse with
  | [] => ['0']
  | digits => digits

/-- The digits with the point after the first `point` of them. -/
def positional (layout : Layout) (digits : List Char) (point : Int) : String :=
  if point ≤ 0 then
    "0." ++ String.ofList (List.replicate (-point).toNat '0' ++ digits)
  else if (digits.length : Int) ≤ point then
    String.ofList (digits ++ List.replicate (point.toNat - digits.length) '0') ++ layout.wholeSuffix
  else
    String.ofList (digits.take point.toNat) ++ "." ++ String.ofList (digits.drop point.toNat)

/-- A signed exponent of at least two digits. -/
def exponentText (exponent : Int) : String :=
  let digits := Nat.toDigits 10 exponent.natAbs
  (if exponent < 0 then "e-" else "e+")
    ++ (if digits.length < 2 then "0" else "") ++ String.ofList digits

/-- One digit, the others after a point, and the exponent of the first. -/
def scientific (digits : List Char) (exponent : Int) : String :=
  String.ofList (digits.take 1)
    ++ (if 1 < digits.length then "." ++ String.ofList (digits.drop 1) else "")
    ++ exponentText exponent

/-- The text of a signed decimal. -/
def write (layout : Layout) (negative : Bool) (decimal : Decimal) : String :=
  let digits := significantDigits decimal
  let point : Int :=
    if decimal.digits = 0 then 1
    else (Nat.toDigits 10 decimal.digits).length + decimal.exponent
  (if negative then "-" else "")
    ++ (if -4 ≤ point - 1 ∧ point - 1 < layout.scientificFrom then
          layout.positional digits point
        else scientific digits (point - 1))

end Layout

namespace Double

/-- The shortest text that reads back as the double. -/
def toText : Double → String
  | .nan => "nan"
  | .infinite negative => if negative then "-inf" else "inf"
  | x@(.finite negative _) => Layout.full.write negative x.shortest

/-- The double as a figure of at most six significant digits. -/
def toFigure : Double → String
  | .nan => "nan"
  | .infinite negative => if negative then "-inf" else "inf"
  | x@(.finite negative _) => Layout.figure.write negative (x.significant 6)

/-- The double with exactly so many decimal places. -/
def toFixed (places : Nat) : Double → String
  | .nan => "nan"
  | .infinite negative => if negative then "-inf" else "inf"
  | x@(.finite negative _) =>
      let rounded := roundHalfEven (x.units.natAbs * Nat.pow 10 places) unitsPerOne
      let digits := Nat.toDigits 10 rounded
      let padded := List.replicate (places + 1 - digits.length) '0' ++ digits
      let whole := padded.take (padded.length - places)
      let fraction := padded.drop (padded.length - places)
      (if negative then "-" else "") ++ String.ofList whole
        ++ (if places = 0 then "" else "." ++ String.ofList fraction)

end Double

end ChartStyle
