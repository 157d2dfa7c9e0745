import ChartStyle.Drawing.Context

/-!
# Lines

`LS` draws a simple line in one of three styles and nine widths; `LC` repeats a symbol along the
line. Widths are given in drawing units of 0.32 mm and drawn in pixels of 1/96 inch.
-/

set_option autoImplicit false

namespace ChartStyle

/-! ## Styles and widths -/

/-- The styles of a simple line. -/
inductive LineStyle where
  | solid
  | dashed
  | dotted
  deriving DecidableEq

namespace LineStyle

/-- The style of that name. -/
def ofName? (name : String) : Option LineStyle :=
  if name = "SOLD" then some .solid
  else if name = "DASH" then some .dashed
  else if name = "DOTT" then some .dotted
  else none

/-- The lengths of dash and gap, in widths of the line; a solid line has none. -/
def dashes : LineStyle → Option (List Int)
  | .solid => none
  | .dashed => some [4, 2]
  | .dotted => some [1, 2]

end LineStyle

/-- The widths in pixels of one to nine units, in hundredths. -/
def lineWidths : List (Int × Nat) :=
  [(1, 121), (2, 242), (3, 363), (4, 484), (5, 605), (6, 726), (7, 847), (8, 968), (9, 1089)]

/-- The width in pixels of a number of units. -/
def lineWidth? (units : Int) : Option Double :=
  (lineWidths.lookup units).map fun hundredths => Double.ofRatio false hundredths 100

namespace Argument

/-- The line style that an argument names. -/
def lineStyle? (a : Argument) : Option LineStyle := LineStyle.ofName? (Text.upper a.token)

/-- A width that must be one of the nine. -/
def widthOf (units : Int) : Except Fault Expr :=
  match lineWidth? units with
  | some width => .ok (.value (.real width))
  | none => .error (.data (.missingKey (toString units)))

/-- The width of a line; one unit unless the argument says otherwise. -/
def width (a : Argument) : Except Fault Expr :=
  match a with
  | .choice picked => picked.expression fun v => do widthOf (← v.toInt)
  | a => do widthOf (← a.intLiteral 1)

end Argument

/-! ## Drawing -/

/-- A simple line. -/
def drawLine (call : Call) (c : DrawingContext) : Except Fault (List Fragment) := do
  let width ← (call.arg 1 .null).width
  let colour ← (call.arg 2 .null).colour c
  match (call.arg 0 .null).lineStyle? with
  | none => .error (.data (.missingKey (Text.upper (call.arg 0 .null).token)))
  | some style =>
    let stroke := [("line-color", colour), ("line-width", width)]
    match style.dashes with
    | some dashes =>
      return [{
        kind := .line
        paint := stroke ++ [("line-dasharray", .value (.list (dashes.map .int)))]
        layout := [("line-cap", .text "butt"), ("line-join", .text "round")] }]
    | none =>
      return [{
        kind := .line
        paint := stroke
        layout := [("line-cap", .text "round"), ("line-join", .text "round")] }]

/-- A line with a repeated symbol, as wide as the symbol is high. -/
def drawComplexLine (call : Call) (a : AttributeSet) (c : DrawingContext) :
    Report (List Fragment) := do
  let name := (call.arg 0 .null).token
  match c.registry.find? name with
  | none =>
    Report.diagnose (.missingSymbol (.text name)) a.objectClass
    return []
  | some entry =>
    return [{
      kind := .line
      paint := [("line-pattern", .text name), ("line-width", .value (.real entry.height))]
      layout := [("line-join", .text "round")] }]

end ChartStyle
