import ChartStyle.Proofs.StepChoice
import ChartStyle.Renderer.Evaluate

/-!
# Calls whose choices are made

A call whose arguments the renderer picks draws for one feature what it draws with the picked
options in their place (`Renderer.settle`). A symbol without a name draws nothing, so a call for one
counts as no call. A choice by conditions is settled by the first of them that holds
(`Renderer.pick_of_case`).
-/

set_option autoImplicit false

namespace ChartStyle

/-! ## Settling -/

namespace Renderer

variable (r : Renderer) (f : TileFeature)

/-- The argument with the option that is picked for the feature in place of a choice. -/
def settleArgument : Argument → Option Argument
  | .choice c => (r.pick f c).map .literal
  | a => some a

/-- The arguments with every choice made. -/
def settleArguments : List Argument → Option (List Argument)
  | [] => some []
  | a :: args => do return (← r.settleArgument f a) :: (← settleArguments args)

end Renderer

/-- The call draws a symbol that has no name, which is no symbol. -/
def Call.isNamelessSymbol (call : Call) : Bool :=
  match call.primitive, call.args with
  | .sy, .literal (.text name) :: _ => name == ""
  | _, _ => false

namespace Renderer

variable (r : Renderer) (f : TileFeature)

/-- What the renderer draws of some calls for a feature: every choice is made, and symbols without a
name are left out. -/
def settle : List Call → Option (List Call)
  | [] => some []
  | call :: calls => do
    let settled : Call := { call with args := ← r.settleArguments f call.args }
    let rest ← settle calls
    return if settled.isNamelessSymbol then rest else settled :: rest

variable {r f}

theorem settle_cons {call : Call} {calls settled : List Call} {args : List Argument}
    (hargs : r.settleArguments f call.args = some args) (hcalls : r.settle f calls = some settled) :
    r.settle f (call :: calls) =
      some (if (Call.mk call.primitive args).isNamelessSymbol then settled
        else ⟨call.primitive, args⟩ :: settled) := by
  rw [settle, hargs, hcalls]
  rfl

/-! ## Choices by conditions -/

/-- A choice by conditions is settled by its first condition that holds. -/
theorem pick_of_case {c : Choice} (hc : c.operator = .case) :
    r.pick f c = r.evalCases f (some c.default)
      (c.stops.map fun (condition, option) => (condition, .value option)) := by
  have hexpression : c.expression (fun option => .ok (.value option)) =
      .ok (.cases (c.stops.map fun (condition, option) => (condition, .value option))
        (.value c.default)) := by
    simp only [Choice.expression, hc, convertStops_values]
    rfl
  rw [pick, hexpression]
  show r.eval f (.cases _ _) = _
  rw [eval, eval]

/-- A condition in front of the others decides before them. -/
theorem evalCases_cons {condition : Expr} {verdict : Bool} {option : Value}
    {otherwise : Option Value} {branches : List (Expr × Expr)}
    (h : r.eval f condition = some (.bool verdict)) :
    r.evalCases f otherwise ((condition, .value option) :: branches) =
      if verdict then some option else r.evalCases f otherwise branches := by
  rw [evalCases, h]
  cases verdict with
  | true =>
    show r.eval f (.value option) = some option
    rw [eval]
  | false => rfl

end Renderer

end ChartStyle
