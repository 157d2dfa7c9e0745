import ChartStyle.Attributes
import ChartStyle.Colour.Palette
import ChartStyle.Drawing.Fragment
import ChartStyle.Instruction.Basic
import ChartStyle.Registry
import ChartStyle.Settings

/-!
# What a call is drawn with

Besides its arguments and the attributes of a feature, a call reads the settings, the palette,
the symbols and the table set that is being compiled: its `DrawingContext`. Colours come from the
palette of the display mode, so a change of mode changes colours only.
-/

set_option autoImplicit false

namespace ChartStyle

/-- Everything that drawing reads besides the call and the attributes. -/
structure DrawingContext where
  settings : Settings
  palette : Palette
  registry : Registry
  tableSet : TableSet
  deriving Inhabited

namespace DrawingContext

/-- The colour of a token in the display mode. -/
def colour (c : DrawingContext) (token : String) : Except Fault Expr := do
  return .text (← c.palette.resolve c.settings.mode token)

/-- The colour of an option of a choice in the display mode. -/
def colourOf (c : DrawingContext) (v : Value) : Except Fault Expr := do
  return .text (← c.palette.resolveValue c.settings.mode v)

end DrawingContext

namespace Argument

/-- The whole number that a literal gives; with anything else, or a literal that gives none, the
default. An infinity is a fault. -/
def intLiteral (a : Argument) (default : Int) : Except Fault Int :=
  match a with
  | .literal .null => .ok default
  | .literal v =>
    match v.toInt with
    | .ok n => .ok n
    | .error (.data .infinityToInt) => .error (.data .infinityToInt)
    | .error _ => .ok default
  | _ => .ok default

/-- The colour of an argument: of its token, or of each option of a choice. -/
def colour (a : Argument) (c : DrawingContext) : Except Fault Expr :=
  match a with
  | .choice picked => picked.expression c.colourOf
  | a => c.colour a.token

end Argument

end ChartStyle
