import ChartStyle.Double.Arith
import ChartStyle.Instruction.Basic
import ChartStyle.Settings

/-!
# Depth bands

The thresholds of the settings cut the depths into five bands. A band is closed on its shallow
side, so a depth equal to a threshold is in the deeper band. `depthBand` classifies a depth now;
`depthChoice` is the same classification for the renderer, as a step over the thresholds.
-/

set_option autoImplicit false

namespace ChartStyle

/-- The bands of depth. -/
inductive DepthBand where
  | intertidal
  | shallow
  | mediumShallow
  | mediumDeep
  | deep
  deriving DecidableEq, Inhabited

namespace DepthBand

/-- The name of a band. -/
def name : DepthBand → String
  | .intertidal => "INTERTIDAL"
  | .shallow => "SHALLOW"
  | .mediumShallow => "MEDIUM_SHALLOW"
  | .mediumDeep => "MEDIUM_DEEP"
  | .deep => "DEEP"

/-- The colour tokens of depth areas. -/
def areaColour : DepthBand → String
  | .intertidal => "DEPIT"
  | .shallow => "DEPVS"
  | .mediumShallow => "DEPMS"
  | .mediumDeep => "DEPMD"
  | .deep => "DEPDW"

/-- The colour tokens of soundings. -/
def soundingColour : DepthBand → String
  | .intertidal => "SNDG3"
  | .shallow => "SNDG3"
  | .mediumShallow => "SNDG2"
  | .mediumDeep => "SNDG2"
  | .deep => "SNDG1"

end DepthBand

/-- The depth lies above a threshold, which must be a number. -/
def shallowerThan (depth : Number) (threshold : Value) : Except Fault Bool := do
  return depth.less (← threshold.comparable)

/-- The band of a depth in metres. -/
def depthBand (depth : Number) (s : Settings) : Except Fault DepthBand := do
  if depth.less (.whole 0) then return .intertidal
  if ← shallowerThan depth s.shallowDepth then return .shallow
  if ← shallowerThan depth s.safetyDepth then return .mediumShallow
  if ← shallowerThan depth s.deepDepth then return .mediumDeep
  return .deep

/-- Puts a threshold into an ascending list, unless an equal one is there. -/
def insertBreak (x : Double) : List Double → List Double
  | [] => [x]
  | y :: ys =>
    if x.same y then y :: ys
    else if x.less y then x :: y :: ys
    else y :: insertBreak x ys

/-- Zero and the thresholds in ascending order, each once. -/
def depthBreaks (s : Settings) : Except Fault (List Double) := do
  let shallow ← s.shallowDepth.toDouble
  let safety ← s.safetyDepth.toDouble
  let deep ← s.deepDepth.toDouble
  return insertBreak deep (insertBreak safety (insertBreak shallow [0]))

/-- The numeric value of an attribute for the renderer; an attribute that is absent or no number
counts as `fallback`. -/
def numericAttribute (code : String) (fallback : Value) : Expr :=
  .toNumber [.coalesce [.get code, .value fallback], .value fallback]

/-- The breaks at which the colour changes, with the colour from there on. -/
def colourStops (colour : Double → Except Fault String) :
    String → List Double → Except Fault (List (Expr × Value))
  | _, [] => .ok []
  | previous, x :: xs => do
    let token ← colour x
    let stops ← colourStops colour token xs
    return if token = previous then stops else (.value (.real x), .text token) :: stops

/-- The colour of a depth band as a choice of the renderer. The band is constant between
consecutive breaks, so the colours at the breaks decide; equal neighbours are merged. -/
def depthChoice (code : String) (fallback : Value) (s : Settings) (colours : DepthBand → String) :
    Except Fault Choice := do
  let breaks ← depthBreaks s
  let colour (x : Double) : Except Fault String := do
    return colours (← depthBand (.real x) s)
  let default ← colour ((breaks.headD 0).sub 1)
  let stops ← colourStops colour default breaks
  return {
    operator := .step
    selector := numericAttribute code fallback
    stops
    default := .text default }

end ChartStyle
