import ChartStyle.Fault
import ChartStyle.Renderer.Expr
import ChartStyle.Value.Entries

/-!
# Drawing instructions

A rule of the lookup table draws with a sequence of calls such as `SY(LIGHTS11,135)`. An argument
is fixed in the instruction string, or names an attribute of the feature, or is picked by the
renderer feature by feature (`Choice`).
-/

set_option autoImplicit false

namespace ChartStyle

/-! ## Primitives and procedures -/

/-- The drawing instructions. -/
inductive Primitive where
  /-- A symbol. -/
  | sy
  /-- A simple line. -/
  | ls
  /-- A line drawn with a repeated symbol. -/
  | lc
  /-- A colour fill. -/
  | ac
  /-- A pattern fill. -/
  | ap
  /-- Plain text. -/
  | tx
  /-- Formatted text. -/
  | te
  /-- A conditional symbology procedure. -/
  | cs
  deriving DecidableEq, Inhabited

namespace Primitive

/-- All drawing instructions. -/
def all : List Primitive := [sy, ls, lc, ac, ap, tx, te, cs]

/-- The name of an instruction in upper case. -/
def name : Primitive → String
  | .sy => "SY"
  | .ls => "LS"
  | .lc => "LC"
  | .ac => "AC"
  | .ap => "AP"
  | .tx => "TX"
  | .te => "TE"
  | .cs => "CS"

/-- The instruction of that name. -/
def ofName? (name : String) : Option Primitive := all.find? (·.name == name)

/-- The least and the greatest number of arguments. -/
def arity : Primitive → Nat × Nat
  | .sy => (1, 2)
  | .ls => (3, 3)
  | .lc => (1, 1)
  | .ac => (1, 2)
  | .ap => (1, 1)
  | .tx => (1, 9)
  | .te => (2, 10)
  | .cs => (1, 1)

end Primitive

/-- The conditional symbology procedures. -/
inductive Procedure where
  /-- Depth areas. -/
  | depare01
  /-- Depth contours. -/
  | depcnt02
  /-- Lights. -/
  | lights05
  /-- Obstructions. -/
  | obstrn04
  /-- Soundings. -/
  | soundg02
  /-- Wrecks. -/
  | wrecks02
  deriving DecidableEq, Inhabited

namespace Procedure

/-- All procedures. -/
def all : List Procedure := [depare01, depcnt02, lights05, obstrn04, soundg02, wrecks02]

/-- The name of a procedure. -/
def name : Procedure → String
  | .depare01 => "DEPARE01"
  | .depcnt02 => "DEPCNT02"
  | .lights05 => "LIGHTS05"
  | .obstrn04 => "OBSTRN04"
  | .soundg02 => "SOUNDG02"
  | .wrecks02 => "WRECKS02"

/-- The procedure of that name. -/
def ofName? (name : String) : Option Procedure := all.find? (·.name == name)

end Procedure

/-! ## Choices -/

/-- How the renderer picks among the options of a choice. -/
inductive Operator where
  /-- By the greatest threshold that the selector reaches. -/
  | step
  /-- By the first condition that holds. -/
  | case
  /-- By the labels that hold the selector. -/
  | pick
  /-- An operator that the renderer does not have. -/
  | unknown (name : String)
  deriving DecidableEq

namespace Operator

/-- The name of an operator in an expression. -/
def name : Operator → String
  | .step => "step"
  | .case => "case"
  | .pick => "match"
  | .unknown name => name

/-- The operator of that name. -/
def ofName (name : String) : Operator :=
  if name = "step" then .step
  else if name = "case" then .case
  else if name = "match" then .pick
  else .unknown name

end Operator

/-- An argument that the renderer picks for each feature. An option is what the literal argument
would be: a colour token, a line width, a symbol name. -/
structure Choice where
  operator : Operator
  /-- What a `step` or `pick` looks at; a `case` has none. -/
  selector : Expr
  /-- Thresholds, conditions or labels with their options. -/
  stops : List (Expr × Value)
  default : Value

namespace Choice

/-- The options, the default first. -/
def options (c : Choice) : List Value := c.default :: c.stops.map (·.2)

/-- The text that stands for a choice in listings. -/
def token (c : Choice) : String :=
  c.operator.name ++ ":" ++ "|".intercalate (c.options.map Value.plain)

/-- The stops with their options converted. -/
def convertStops (convert : Value → Except Fault Expr) :
    List (Expr × Value) → Except Fault (List (Expr × Expr))
  | [] => .ok []
  | (stop, option) :: stops => do
    let e ← convert option
    return (stop, e) :: (← convertStops convert stops)

/-- The stops of a `pick`, their labels as lists, with their options converted. -/
def convertLabels (convert : Value → Except Fault Expr) :
    List (Expr × Value) → Except Fault (List (Value × Expr))
  | [] => .ok []
  | (stop, option) :: stops => do
    let labels ← stop.toValue.items
    let e ← convert option
    return (.list labels, e) :: (← convertLabels convert stops)

/-- The expression by which the renderer picks, with every option converted. -/
def expression (c : Choice) (convert : Value → Except Fault Expr) : Except Fault Expr :=
  match c.operator with
  | .step => do
    let base ← convert c.default
    let stops ← convertStops convert c.stops
    return .step c.selector base (stops.map fun (stop, e) => (stop.toValue, e))
  | .case => do
    let stops ← convertStops convert c.stops
    return .cases stops (← convert c.default)
  | .pick => do
    let stops ← convertLabels convert c.stops
    return .pick c.selector stops (← convert c.default)
  | .unknown name => .error (.configuration (.unknownOperator name) none)

end Choice

/-! ## Arguments and calls -/

/-- An argument of a call. -/
inductive Argument where
  /-- A value fixed in the instruction string. -/
  | literal (v : Value)
  /-- The value of an attribute of the feature. -/
  | attribute (code : String)
  /-- One of several options, picked for each feature. -/
  | choice (c : Choice)
  /-- A value that the renderer computes for each feature. -/
  | computed (e : Expr)

instance : Inhabited Argument := ⟨.literal .null⟩

namespace Argument

/-- The text of an argument: of a literal its plain text, of an attribute its code. -/
def token : Argument → String
  | .literal v => v.plain
  | .attribute code => code
  | .choice c => c.token
  | .computed e => e.toValue.plain

/-- A literal text. -/
def text (s : String) : Argument := .literal (.text s)

/-- A literal whole number. -/
def int (n : Int) : Argument := .literal (.int n)

end Argument

/-- A drawing instruction with its arguments. -/
structure Call where
  primitive : Primitive
  args : List Argument
  deriving Inhabited

namespace Call

/-- The argument at a position, or the literal `default` when there are fewer. -/
def arg (call : Call) (position : Nat) (default : Value) : Argument :=
  call.args.getD position (.literal default)

/-- The procedure that a `CS` call names; no other call names one. -/
def procedure? (call : Call) : Except Fault (Option Procedure) :=
  match call.primitive with
  | .cs =>
    match call.args with
    | [] => .error (.data .missingPosition)
    | a :: _ =>
      match Procedure.ofName? a.token with
      | some p => .ok (some p)
      | none => .error (.data (.unknownMember a.token "Procedure"))
  | _ => .ok none

end Call

end ChartStyle
