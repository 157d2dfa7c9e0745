import ChartStyle.Value.Basic

/-!
# Renderer expressions

The expressions that a style layer may hold in place of a value, read by the renderer for each
feature. `Expr.toValue` gives the list form in which a style document holds them.
-/

set_option autoImplicit false

namespace ChartStyle

/-- An expression of the renderer's language. -/
inductive Expr where
  /-- A value that stands for itself. -/
  | value (v : Value)
  /-- A list or mapping that is data. -/
  | literal (v : Value)
  /-- The value of an attribute, null when the feature has none. -/
  | get (code : String)
  /-- The feature has the attribute. -/
  | has (code : String)
  /-- The identifier of the feature. -/
  | featureId
  /-- The geometry of the feature. -/
  | geometryType
  /-- The text of a value; null has the empty text. -/
  | toText (e : Expr)
  /-- The first of the values that can be read as a number. -/
  | toNumber (es : List Expr)
  /-- The first of the values that is not null. -/
  | coalesce (es : List Expr)
  | equal (a b : Expr)
  | less (a b : Expr)
  | not (e : Expr)
  | all (es : List Expr)
  | any (es : List Expr)
  /-- The texts one after the other. -/
  | concat (es : List Expr)
  /-- The part of a text from one position up to another. -/
  | slice (e : Expr) (start stop : Expr)
  /-- The first position of a text in another. -/
  | indexOf (needle hay : Expr)
  /-- The value of the first branch whose condition holds, else the last value. -/
  | cases (branches : List (Expr × Expr)) (otherwise : Expr)
  /-- The value of the first branch that has the selector among its labels, else the last one. -/
  | pick (selector : Expr) (branches : List (Value × Expr)) (otherwise : Expr)
  /-- The value of the last stop that the selector reaches, else the first value. -/
  | step (selector base : Expr) (stops : List (Value × Expr))
  /-- A number with exactly so many decimal places. -/
  | numberFormat (e : Expr) (places : Nat)
  deriving Inhabited

namespace Expr

/-- An expression that is a text. -/
def text (s : String) : Expr := .value (.text s)

mutual

/-- The form of an expression in a style document. -/
def toValue : Expr → Value
  | .value v => v
  | .literal v => .list [.text "literal", v]
  | .get code => .list [.text "get", .text code]
  | .has code => .list [.text "has", .text code]
  | .featureId => .list [.text "id"]
  | .geometryType => .list [.text "geometry-type"]
  | .toText e => .list [.text "to-string", toValue e]
  | .toNumber es => .list (.text "to-number" :: toValues es)
  | .coalesce es => .list (.text "coalesce" :: toValues es)
  | .equal a b => .list [.text "==", toValue a, toValue b]
  | .less a b => .list [.text "<", toValue a, toValue b]
  | .not e => .list [.text "!", toValue e]
  | .all es => .list (.text "all" :: toValues es)
  | .any es => .list (.text "any" :: toValues es)
  | .concat es => .list (.text "concat" :: toValues es)
  | .slice e start stop => .list [.text "slice", toValue e, toValue start, toValue stop]
  | .indexOf needle hay => .list [.text "index-of", toValue needle, toValue hay]
  | .cases branches otherwise =>
      .list (.text "case" :: branchValues branches ++ [toValue otherwise])
  | .pick selector branches otherwise =>
      .list (.text "match" :: toValue selector :: stopValues branches ++ [toValue otherwise])
  | .step selector base stops =>
      .list (.text "step" :: toValue selector :: toValue base :: stopValues stops)
  | .numberFormat e places =>
      .list [.text "number-format", toValue e,
        .ofFields [("min-fraction-digits", .int places), ("max-fraction-digits", .int places)]]

/-- The forms of several expressions. -/
def toValues : List Expr → List Value
  | [] => []
  | e :: es => toValue e :: toValues es

/-- Conditions and values in turn. -/
def branchValues : List (Expr × Expr) → List Value
  | [] => []
  | (condition, e) :: branches => toValue condition :: toValue e :: branchValues branches

/-- Labels or thresholds and values in turn. -/
def stopValues : List (Value × Expr) → List Value
  | [] => []
  | (stop, e) :: stops => stop :: toValue e :: stopValues stops

end

end Expr

end ChartStyle
