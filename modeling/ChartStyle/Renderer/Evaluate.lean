import ChartStyle.Attributes
import ChartStyle.Instruction.Basic

/-!
# Evaluating expressions

What the renderer makes of an expression for one feature of a tile. The conversions between texts
and numbers are the renderer's own: a `Renderer` is any choice of them that keeps the laws of the
style language, and `Renderer.standard` is one. `Renderer.eval` gives the value of an expression,
nothing where the renderer reports an error; `Renderer.accepts` is the verdict of a filter, and
`Renderer.pick` the option of a choice.
-/

set_option autoImplicit false

namespace ChartStyle

/-- A feature of a tile as the renderer sees it. -/
structure TileFeature where
  id : Value
  /-- The name of its geometry type. -/
  geometry : String
  properties : List (String × Value)

namespace TileFeature

/-- The value of an attribute, when the feature has it. -/
def find? (f : TileFeature) (code : String) : Option Value := f.properties.lookup code

/-- The attributes of a feature that lies in the source layer of an object class. -/
def attributeSet (f : TileFeature) (objectClass : String) : AttributeSet :=
  { objectClass, entries := f.properties }

end TileFeature

namespace Value

/-- The number that a value is for the renderer, where truth values are none. -/
def measure? : Value → Option Number
  | .int n => some (.whole n)
  | .real x => some (.real x)
  | _ => none

/-- The finite double that a number is or is nearest to. -/
def finite? : Value → Option Double
  | .int n => Double.ofInt? n
  | .real x => if x.isFinite then some x else none
  | _ => none

/-- Equal values of one kind, numbers by what they measure. -/
def equals : Value → Value → Bool
  | .null, .null => true
  | .bool a, .bool b => a == b
  | .text s, .text t => s == t
  | v, w =>
    match v.measure?, w.measure? with
    | some m, some n => m.same n
    | _, _ => false

/-- The value is a label of a branch, or among its labels. -/
def isAmong (v : Value) : Value → Bool
  | .list labels => labels.any v.equals
  | label => v.equals label

/-- The position that a number stands for, cut toward zero. -/
def position? : Value → Option Int
  | .int n => some n
  | .real x => if x.isFinite then some x.truncate else none
  | _ => none

end Value

/-- The conversions of a renderer, with the laws that its style language documents. -/
structure Renderer where
  /-- The text of a value. -/
  text : Value → String
  /-- The number that a value can be read as. -/
  number? : Value → Option Double
  /-- A number with exactly so many decimal places. -/
  fixed : Double → Nat → String
  text_null : text .null = ""
  text_text : ∀ s, text (.text s) = s
  /-- Whole numbers up to `2 ^ 53` are written out. -/
  text_int : ∀ n : Int, n.natAbs ≤ 0x20000000000000 → text (.int n) = toString n
  number_finite : ∀ v x, v.finite? = some x → number? v = some x

namespace Renderer

/-- The characters of a text from one position up to another; a negative position counts from
the end. -/
def cut (cs : List Char) (start stop : Int) : List Char :=
  let place (position : Int) : Nat :=
    (if position < 0 then position + cs.length else position).toNat
  (cs.take (place stop)).drop (place start)

/-- The first position at which the needle stands in the hay, minus one when it does not. -/
def positionOf (needle : List Char) : List Char → Int
  | [] => if needle.isEmpty then 0 else -1
  | c :: cs =>
    if needle.isPrefixOf (c :: cs) then 0
    else
      let position := positionOf needle cs
      if position < 0 then -1 else position + 1

variable (r : Renderer) (f : TileFeature)

mutual

/-- The value of an expression for a feature. -/
def eval : Expr → Option Value
  | .value v => some v
  | .literal v => some v
  | .get code => some ((f.find? code).getD .null)
  | .has code => some (.bool (f.find? code).isSome)
  | .featureId => some f.id
  | .geometryType => some (.text f.geometry)
  | .toText e => (eval e).map fun v => .text (r.text v)
  | .toNumber es => evalNumber es
  | .coalesce es => evalCoalesce es
  | .equal a b => do return .bool ((← eval a).equals (← eval b))
  | .less a b => do return .bool ((← (← eval a).measure?).less (← (← eval b).measure?))
  | .not e => do
    match ← eval e with
    | .bool b => some (.bool !b)
    | _ => none
  | .all es => evalAll es
  | .any es => evalAny es
  | .concat es => (evalTexts es).map .text
  | .slice e start stop => do
    match ← eval e with
    | .text s =>
      return .text (String.ofList
        (cut s.toList (← (← eval start).position?) (← (← eval stop).position?)))
    | _ => none
  | .indexOf needle hay => do
    match ← eval needle, ← eval hay with
    | .text s, .text t => return .int (positionOf s.toList t.toList)
    | _, _ => none
  | .cases branches otherwise => evalCases (eval otherwise) branches
  | .pick selector branches otherwise => do evalPick (← eval selector) (eval otherwise) branches
  | .step selector base stops => do evalStops (← (← eval selector).measure?) (eval base) stops
  | .numberFormat e places => do
    match ← (← eval e).measure? with
    | .real x => return .text (r.fixed x places)
    | .whole n => return .text (r.fixed (Double.ofInt n) places)

/-- The first of the values that can be read as a number. -/
def evalNumber : List Expr → Option Value
  | [] => none
  | e :: es => do
    match r.number? (← eval e) with
    | some x => return .real x
    | none => evalNumber es

/-- The first of the values that is not null. -/
def evalCoalesce : List Expr → Option Value
  | [] => some .null
  | e :: es => do
    match ← eval e with
    | .null => evalCoalesce es
    | v => some v

/-- All conditions hold; those after the first that does not are not looked at. -/
def evalAll : List Expr → Option Value
  | [] => some (.bool true)
  | e :: es => do
    match ← eval e with
    | .bool true => evalAll es
    | .bool false => some (.bool false)
    | _ => none

/-- Some condition holds; those after the first that does are not looked at. -/
def evalAny : List Expr → Option Value
  | [] => some (.bool false)
  | e :: es => do
    match ← eval e with
    | .bool true => some (.bool true)
    | .bool false => evalAny es
    | _ => none

/-- The texts of the values one after the other. -/
def evalTexts : List Expr → Option String
  | [] => some ""
  | e :: es => do return r.text (← eval e) ++ (← evalTexts es)

/-- The value of the first branch whose condition holds. -/
def evalCases (otherwise : Option Value) : List (Expr × Expr) → Option Value
  | [] => otherwise
  | (condition, e) :: branches => do
    match ← eval condition with
    | .bool true => eval e
    | .bool false => evalCases otherwise branches
    | _ => none

/-- The value of the first branch that has the selector among its labels. -/
def evalPick (selector : Value) (otherwise : Option Value) : List (Value × Expr) → Option Value
  | [] => otherwise
  | (labels, e) :: branches =>
    if selector.isAmong labels then eval e else evalPick selector otherwise branches

/-- The value of the last of the ascending stops that the selector reaches, else the value before
them. -/
def evalStops (x : Number) (reached : Option Value) : List (Value × Expr) → Option Value
  | [] => reached
  | (stop, e) :: stops => do
    if (← stop.measure?).lessEq x then evalStops x (eval e) stops else reached

end

/-- The renderer draws the feature when its layer has this filter. -/
def accepts (filter : Expr) : Bool :=
  match r.eval f filter with
  | some (.bool verdict) => verdict
  | _ => false

/-- The option of a choice that the renderer picks for the feature. -/
def pick (c : Choice) : Option Value :=
  match c.expression fun option => .ok (.value option) with
  | .ok e => r.eval f e
  | .error _ => none

/-! ## A renderer -/

/-- The text of a value: numbers in decimal, truth values by their names. -/
def standardText : Value → String
  | .null => ""
  | .text s => s
  | .bool b => if b then "true" else "false"
  | .real x => if x.isWhole then toString x.truncate else x.toText
  | v => v.shown

/-- The number of a value: null counts as zero, and a text is read. -/
def standardNumber? : Value → Option Double
  | .null => some 0
  | .bool b => some (if b then 1 else 0)
  | .int n => some (Double.ofInt n)
  | .real x => if x = .nan then none else some x
  | .text s => (Text.readDouble? s).filter (· != .nan)
  | _ => none

/-- A renderer that writes and reads numbers as the library does. -/
def standard : Renderer where
  text := standardText
  number? := standardNumber?
  fixed x places := x.toFixed places
  text_null := rfl
  text_text _ := rfl
  text_int _ _ := rfl
  number_finite v x h := by
    cases v with
    | int n =>
      simp only [Value.finite?, Double.ofInt?] at h
      split at h
      · exact h
      · cases h
    | real y =>
      cases y with
      | finite negative place => exact h
      | nan | infinite negative => simp [Value.finite?, Double.isFinite] at h
    | null | bool b | text s | list items | map entries | perFeature => simp [Value.finite?] at h

end Renderer

end ChartStyle
