import ChartStyle.Drawing.Context
import ChartStyle.Value.Number

/-!
# Symbols

`SY` draws a symbol centred on its pivot, turned by some degrees clockwise. A literal turn is
relative to the screen, one read from an attribute to true north, and a turn of zero is left out.
A symbol that the renderer picks draws nothing where its name is empty.
-/

set_option autoImplicit false

namespace ChartStyle

/-! ## Turns -/

/-- A full turn in degrees. -/
def fullTurn : Nat := 360

/-- The number reduced to a turn when it lies outside zero to a full turn. -/
def Number.reduceTurn (n : Number) : Number :=
  if (Number.whole 0).lessEq n && n.lessEq (.whole fullTurn) then n
  else
    match n with
    | .whole n => .whole (n % (fullTurn : Int))
    | .real x => .real (x.floorMod fullTurn)

/-- The turn of a symbol: a number, or the attribute that the renderer reads it from. -/
inductive Turn where
  | fixed (v : Value)
  | attribute (code : String)

namespace Turn

/-- The number that a literal gives as a turn, zero when it gives none. -/
def ofLiteral (v : Value) : Value :=
  match v.number? with
  | some _ => v
  | none =>
    match v.toDouble with
    | .ok x => .real x
    | .error _ => .int 0

/-- The turn that an argument gives. -/
def ofArgument (arg : Argument) (a : AttributeSet) : Report Turn :=
  match arg with
  | .attribute code => do
    if a.isKnown code then
      let x := (← a.getReal code (.int 0)).getD 0
      return .fixed (if x.isWhole then .int x.truncate else .real x)
    else return .attribute code
  | .literal v => pure (.fixed (ofLiteral v))
  | .computed _ => pure (.fixed (.int 0))
  | .choice _ => .fail (.data (.missingPart "value"))

/-- A turn within a full turn; a truth value is within. -/
def reduce : Turn → Turn
  | .fixed (.bool b) => .fixed (.bool b)
  | .fixed v =>
    match v.number? with
    | some n => .fixed n.reduceTurn.toValue
    | none => .fixed v
  | .attribute code => .attribute code

/-- No turn at all. -/
def isZero : Turn → Bool
  | .fixed v => !v.isPresent
  | .attribute _ => false

/-- The properties of a turn; it is relative to the map when the argument names an attribute. -/
def properties (turn : Turn) (arg : Argument) : Properties :=
  if turn.isZero then []
  else
    let alignment :=
      match arg with
      | .attribute _ => "map"
      | _ => "viewport"
    let e : Expr :=
      match turn with
      | .fixed v => .value v
      | .attribute code => .get code
    [("icon-rotate", e), ("icon-rotation-alignment", .text alignment)]

end Turn

/-! ## Images -/

/-- The image of a symbol and its offset. -/
structure Icon where
  image : Expr
  offset : Expr

/-- The icon of a symbol that is the same for all features. -/
def fixedIcon (name : String) (a : AttributeSet) (c : DrawingContext) : Report (Option Icon) := do
  match c.registry.find? name with
  | none =>
    Report.diagnose (.missingSymbol (.text name)) a.objectClass
    return none
  | some entry =>
    return some { image := .text name, offset := .value (SymbolEntry.pointValue entry.offset) }

/-- The options of a choice that the registry has; the others are reported, save the empty one. -/
def registered (c : DrawingContext) (a : AttributeSet) :
    List Value → Report (List (String × SymbolEntry))
  | [] => pure []
  | option :: options => do
    if option.isPresent then
      match ← c.registry.findValue? option with
      | some entry => return (option.plain, entry) :: (← registered c a options)
      | none =>
        Report.diagnose (.missingSymbol option) a.objectClass
        registered c a options
    else registered c a options

/-- The registered entry of an option. -/
def entryOf? (entries : List (String × SymbolEntry)) (option : Value) :
    Except Fault (Option SymbolEntry) :=
  match option with
  | .text name => .ok (entries.lookup name)
  | v => if v.isKey then .ok none else .error (.data (.notAKey v.kindName))

/-- The icon of a symbol that the renderer picks; options that the registry lacks draw nothing. -/
def pickedIcon (choice : Choice) (a : AttributeSet) (c : DrawingContext) :
    Report (Option Icon) := do
  let entries ← registered c a choice.options
  if entries.isEmpty then return none
  else
    let image ← choice.expression fun option => do
      return .value (if (← entryOf? entries option).isSome then option else .text "")
    let offset ← choice.expression fun option => do
      match ← entryOf? entries option with
      | some entry => return .literal (SymbolEntry.pointValue entry.offset)
      | none => return .literal (.list [.int 0, .int 0])
    return some { image, offset }

/-- The icon of a symbol argument. -/
def iconOf (arg : Argument) (a : AttributeSet) (c : DrawingContext) : Report (Option Icon) :=
  match arg with
  | .choice choice => pickedIcon choice a c
  | arg => fixedIcon arg.token a c

/-! ## Drawing -/

/-- A symbol. -/
def drawSymbol (call : Call) (a : AttributeSet) (c : DrawingContext) :
    Report (List Fragment) := do
  match ← iconOf (call.arg 0 .null) a c with
  | none => return []
  | some icon =>
    let arg := call.arg 1 (.int 0)
    let turn := (← Turn.ofArgument arg a).reduce
    return [{
      kind := .symbol
      layout := [("symbol-placement", .text "point"), ("icon-allow-overlap", .value (.bool true)),
        ("icon-ignore-placement", .value (.bool true)), ("icon-image", icon.image),
        ("icon-offset", icon.offset)] ++ turn.properties arg }]

end ChartStyle
