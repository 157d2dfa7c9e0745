import ChartStyle.Drawing.Area
import ChartStyle.Drawing.Line

/-!
# Checking calls

Literal parameters that can never be drawn are refused before any feature is compiled: unknown
line styles and colours, and widths and transparencies out of range.
-/

set_option autoImplicit false

namespace ChartStyle

namespace Argument

/-- A literal colour must be a token of the palette. -/
def checkColour (arg : Argument) (p : Palette) (rule : String) : Except Fault Unit :=
  match arg with
  | .literal .null => .ok ()
  | .literal v =>
    if p.has v.plain then .ok ()
    else .error (.configuration (.unknownColour v.plain) (some rule))
  | .computed e =>
    if p.has e.toValue.plain then .ok ()
    else .error (.configuration (.unknownColour e.toValue.plain) (some rule))
  | _ => .ok ()

/-- The argument at a position, when there is one, must be a colour of the palette. -/
def checkColourAt (args : List Argument) (position : Nat) (p : Palette) (rule : String) :
    Except Fault Unit :=
  match args[position]? with
  | some arg => arg.checkColour p rule
  | none => .ok ()

end Argument

namespace Call

/-- Checks the style, the width and the colour of a simple line. -/
def checkLine (call : Call) (p : Palette) (rule : String) : Except Fault Unit := do
  let style := call.arg 0 .null
  let width := call.arg 1 .null
  if style.lineStyle?.isNone then
    .error (.configuration (.unknownLineStyle style.token) (some rule))
  if (lineWidth? (← width.intLiteral (-1))).isNone then
    .error (.configuration (.lineWidthOutOfRange width.token) (some rule))
  (call.arg 2 .null).checkColour p rule

/-- Checks the colour and the transparency of a colour fill. -/
def checkFill (call : Call) (p : Palette) (rule : String) : Except Fault Unit := do
  let transparency := call.arg 1 (.int 0)
  (call.arg 0 .null).checkColour p rule
  if (fillOpacity? (← transparency.intLiteral (-1))).isNone then
    .error (.configuration (.transparencyOutOfRange transparency.token) (some rule))

/-- Checks the parameters of a call that can be known to be wrong without a feature. -/
def check (call : Call) (p : Palette) (rule : String) : Except Fault Unit :=
  match call.primitive with
  | .ls => call.checkLine p rule
  | .ac => call.checkFill p rule
  | .tx => Argument.checkColourAt call.args 7 p rule
  | .te => Argument.checkColourAt call.args 8 p rule
  | _ => .ok ()

end Call

end ChartStyle
