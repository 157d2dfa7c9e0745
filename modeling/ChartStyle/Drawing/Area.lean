import ChartStyle.Drawing.Context

/-!
# Areas

`AC` fills an area with a colour, in five steps from opaque to transparent; `AP` fills it with a
repeated symbol.
-/

set_option autoImplicit false

namespace ChartStyle

/-- The opacities of the transparencies zero to four, in quarters. -/
def fillOpacities : List (Int × Nat) := [(0, 4), (1, 3), (2, 2), (3, 1), (4, 0)]

/-- The opacity of a transparency. -/
def fillOpacity? (transparency : Int) : Option Double :=
  (fillOpacities.lookup transparency).map fun quarters => Double.ofRatio false quarters 4

/-- A colour fill. -/
def drawFill (call : Call) (c : DrawingContext) : Except Fault (List Fragment) := do
  let transparency ← (call.arg 1 (.int 0)).intLiteral 0
  let colour ← (call.arg 0 .null).colour c
  match fillOpacity? transparency with
  | none => .error (.data (.missingKey (toString transparency)))
  | some opacity =>
    return [{
      kind := .fill
      paint := [("fill-color", colour), ("fill-opacity", .value (.real opacity))] }]

/-- A pattern fill, aligned to the map. -/
def drawPattern (call : Call) (a : AttributeSet) (c : DrawingContext) :
    Report (List Fragment) := do
  let name := (call.arg 0 .null).token
  match c.registry.find? name with
  | none =>
    Report.diagnose (.missingSymbol (.text name)) a.objectClass
    return []
  | some _ =>
    return [{
      kind := .fill
      paint := [("fill-pattern", .text name), ("fill-opacity", .value (.real 1)),
        ("fill-translate-anchor", .text "map")] }]

end ChartStyle
