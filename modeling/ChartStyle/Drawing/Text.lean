import ChartStyle.Drawing.Context
import ChartStyle.Text.Template

/-!
# Texts

`TX` draws a text, `TE` a template filled with attribute values. Values that are known now are
written into the text; for the others the text is an expression that the renderer evaluates for
each feature. A text that is missing or empty draws nothing.
-/

set_option autoImplicit false

namespace ChartStyle

/-! ## What is written -/

/-- A value as a text to draw: lists stay lists, everything else is written out. -/
def textOfValue : Value → Option Expr
  | .null => none
  | .text s => if s = "" then none else some (.text s)
  | .list items => some (.value (.list items))
  | v => some (.text v.plain)

/-- The text that an argument gives. -/
def textOfArgument (arg : Argument) (a : AttributeSet) : Except Fault (Option Expr) :=
  match arg with
  | .literal v => .ok (textOfValue v)
  | .attribute code =>
    match a.known? code with
    | some v => .ok (textOfValue v)
    | none => .ok (some (.get code))
  | .computed e => .ok (some e)
  | .choice _ => .error (.data (.missingPart "code"))

namespace Template

/-- The decimal places of a field that does not say how many. -/
def defaultPlaces : Nat := 6

/-- The greatest number of decimal places. -/
def maxPlaces : Nat := 0x7FFFFFFF

/-- The value of a field for the renderer. -/
def deferred (f : Text.Field) (code : String) : Expr :=
  match f.conversion, f.precision with
  | .decimal, some places => .numberFormat (.toNumber [.get code]) places
  | _, _ => .toText (.get code)

/-- A number in a field. -/
def written (f : Text.Field) (x : Double) : Except Fault String :=
  match f.conversion with
  | .decimal =>
    let places := f.precision.getD defaultPlaces
    if maxPlaces < places then .error (.data .tooManyPlaces) else .ok (x.toFixed places)
  | _ => .ok (toString x.truncate)

/-- The text of a field; nothing when its value should be a number and is none. -/
def fill (f : Text.Field) (code : String) (a : AttributeSet) : Report (Option Expr) := do
  if a.isKnown code then
    match f.conversion with
    | .text => return some (.text ((a.getText code).getD ""))
    | _ =>
      match ← a.getReal code .null with
      | none => return none
      | some x => return some (.text (← written f x))
  else return some (deferred f code)

/-- The texts of the pieces of a template. A field without an attribute is left out; nothing is
written when a field has no text. -/
def fillAll (a : AttributeSet) : List Text.Piece → List String → Report (Option (List Expr))
  | [], _ => pure (some [])
  | .literal s :: pieces, codes => do
    return (← fillAll a pieces codes).map (.text (String.ofList s) :: ·)
  | .field _ :: pieces, [] => fillAll a pieces []
  | .field f :: pieces, code :: codes => do
    match ← fill f code a with
    | none => return none
    | some e => return (← fillAll a pieces codes).map (e :: ·)

/-- The text that an expression is. -/
def text? : Expr → Option String
  | .value (.text s) => some s
  | _ => none

/-- Texts one after the other: one text when all are known now. -/
def join (es : List Expr) : Expr :=
  match es.mapM text? with
  | some texts => .text (String.join texts)
  | none => .concat es

/-- A template filled with the values of attributes. -/
def format (template : String) (codes : List String) (a : AttributeSet) : Report (Option Expr) := do
  return (← fillAll a (Text.pieces template.toList) codes).map join

end Template

/-! ## How it is written -/

/-- The height of a text in points unless its style says otherwise. -/
def defaultTextHeight : Int := 10

/-- The height in points that a character style gives: the digits from its fourth character on. -/
def textHeight (chars : List Char) : Except Fault Int :=
  let digits := chars.drop 3
  if !digits.isEmpty && digits.all Text.isDigit then
    (Value.text (String.ofList digits)).toInt
  else .ok defaultTextHeight

/-- A height of so many points of 0.351 mm in pixels of 1/96 inch, to one decimal place. -/
def textSize (points : Int) : Except Fault Double := do
  let height ← (Value.int points).toDouble
  return (height * Double.ofRatio false 351 1000 * 96 / Double.ofRatio false 254 10).roundPlaces 1

/-- The font of a character style: its second character is the weight, its third the slant. -/
def textFont (chars : List Char) : String :=
  if chars[1]? = some '6' then "Noto Sans Bold"
  else if chars[2]? = some '2' then "Noto Sans Italic"
  else "Noto Sans Regular"

/-- The point of a text that lies on the feature: horizontally centre, right or left, vertically
bottom, centre or top. -/
def textAnchor (hjust vjust : Int) : String :=
  let anchors : List ((Int × Int) × String) :=
    [((1, 1), "bottom"), ((1, 2), "center"), ((1, 3), "top"),
      ((2, 1), "bottom-right"), ((2, 2), "right"), ((2, 3), "top-right"),
      ((3, 1), "bottom-left"), ((3, 2), "left"), ((3, 3), "top-left")]
  (anchors.lookup (hjust, vjust)).getD "center"

/-- The width of a wrapped text in characters. -/
def wrapWidth : Int := 8

/-- The colour of a text unless it has one. -/
def defaultTextColour : String := "CHBLK"

/-- The colour around a text. -/
def haloColour : String := "NODTA"

/-- The colour argument, the default one in place of an empty token. -/
def textColour : Argument → Argument
  | .choice choice => .choice choice
  | arg => if arg.token = "" then .text defaultTextColour else arg

/-- A text with the parameters that follow it in the call: justification, spacing, character
style, offsets and colour. -/
def textFragment (text : Expr) (params : List Argument) (c : DrawingContext) :
    Except Fault (List Fragment) := do
  let param (position : Nat) (default : Value) : Argument :=
    params.getD position (.literal default)
  let hjust ← (param 0 (.int 1)).intLiteral 1
  let vjust ← (param 1 (.int 1)).intLiteral 1
  let space ← (param 2 (.int 2)).intLiteral 2
  let chars := (param 3 (.text "")).token.toList
  let height ← textHeight chars
  let x ← (param 4 (.int 0)).intLiteral 0
  let y ← (param 5 (.int 0)).intLiteral 0
  let size ← textSize height
  let colour ← (textColour (param 6 (.text defaultTextColour))).colour c
  let halo ← c.colour haloColour
  return [{
    kind := .symbol
    paint := [("text-color", colour), ("text-halo-color", halo),
      ("text-halo-width", .value (.real 1))]
    layout := [("symbol-placement", .text "point"), ("text-field", text),
      ("text-font", .value (.ofTexts [textFont chars])), ("text-size", .value (.real size)),
      ("text-anchor", .text (textAnchor hjust vjust)),
      ("text-offset", .value (.list [.int x, .int y])),
      ("text-allow-overlap", .value (.bool false))]
      ++ (if space = 3 then [("text-max-width", .value (.int wrapWidth))] else []) }]

/-! ## Drawing -/

/-- A text with its parameters, when there is one. -/
def drawTextExpr (text : Option Expr) (params : List Argument) (c : DrawingContext) :
    Except Fault (List Fragment) :=
  match text with
  | none => .ok []
  | some text => textFragment text params c

/-- A plain text. -/
def drawText (call : Call) (a : AttributeSet) (c : DrawingContext) :
    Except Fault (List Fragment) := do
  drawTextExpr (← textOfArgument (call.arg 0 .null) a) (call.args.drop 1) c

/-- The attribute codes that an argument lists between commas. -/
def codesOf (arg : Argument) : List String :=
  ((Text.splitOn ',' arg.token).map Text.trimmed).filter (· ≠ "")

/-- A text that a template leaves nothing of is not drawn. -/
def notEmpty : Expr → Option Expr
  | .value (.text s) => if s = "" then none else some (.text s)
  | e => some e

/-- A template filled with attribute values. -/
def drawFormattedText (call : Call) (a : AttributeSet) (c : DrawingContext) :
    Report (List Fragment) := do
  let text ← Template.format (call.arg 0 .null).token (codesOf (call.arg 1 .null)) a
  drawTextExpr (text.bind notEmpty) (call.args.drop 2) c

end ChartStyle
