import ChartStyle.Drawing.Area
import ChartStyle.Drawing.Line
import ChartStyle.Drawing.Symbol
import ChartStyle.Drawing.Text
import ChartStyle.Procedure.Evaluate

/-!
# Drawing calls

`Call.draw` gives what a call draws for a feature. A `CS` call runs its procedure and draws the
calls that come of it; a procedure never names another one.
-/

set_option autoImplicit false

namespace ChartStyle

namespace Call

/-- What a call draws that runs no procedure. -/
def drawPlain (call : Call) (a : AttributeSet) (c : DrawingContext) : Report (List Fragment) :=
  match call.primitive with
  | .sy => drawSymbol call a c
  | .ls => drawLine call c
  | .lc => drawComplexLine call a c
  | .ac => drawFill call c
  | .ap => drawPattern call a c
  | .tx => drawText call a c
  | .te => drawFormattedText call a c
  | .cs => .fail (.configuration (.nestedProcedure (call.arg 0 .null).token) none)

/-- What several calls draw that run no procedure. -/
def drawAllPlain (a : AttributeSet) (c : DrawingContext) : List Call → Report (List Fragment)
  | [] => pure []
  | call :: calls => do
    let fragments ← call.drawPlain a c
    return fragments ++ (← drawAllPlain a c calls)

/-- What a call draws. -/
def draw (call : Call) (a : AttributeSet) (c : DrawingContext) : Report (List Fragment) := do
  match ← call.procedure? with
  | none => call.drawPlain a c
  | some procedure => drawAllPlain a c (← procedure.evaluate a c.settings c.tableSet)

/-- What several calls draw, one after the other. -/
def drawAll (a : AttributeSet) (c : DrawingContext) : List Call → Report (List Fragment)
  | [] => pure []
  | call :: calls => do
    let fragments ← call.draw a c
    return fragments ++ (← drawAll a c calls)

end Call

end ChartStyle
