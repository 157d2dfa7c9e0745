import ChartStyle.Drawing.Draw
import ChartStyle.Proofs.PaletteTokens

/-!
# Drawing without colours

What calls draw in two display modes differs in nothing but colours: `Fragment.colourless` keeps a
fragment whole but for the values of its colour properties, and of these it keeps the shape, that
is the operator with its selector, conditions, labels and thresholds. In any two modes a call
notes the same, and fails with the same fault or draws the same fragments up to their colours
(`draw_agrees`), since it reads the mode only where it looks up a colour.
-/

set_option autoImplicit false

namespace ChartStyle

/-! ## Colourless views -/

namespace Expr

/-- A value is blanked, any other expression stays. -/
def blank : Expr → Expr
  | .value _ => .value .null
  | e => e

/-- A colour without its values: a plain one, or the options that an expression picks among. -/
def colourless : Expr → Expr
  | .step selector base stops =>
    .step selector base.blank (stops.map fun (stop, e) => (stop, e.blank))
  | .cases branches otherwise =>
    .cases (branches.map fun (condition, e) => (condition, e.blank)) otherwise.blank
  | .pick selector branches otherwise =>
    .pick selector (branches.map fun (labels, e) => (labels, e.blank)) otherwise.blank
  | e => e.blank

end Expr

/-- The paint properties that are colours. -/
def colourKeys : List String := ["line-color", "fill-color", "text-color", "text-halo-color"]

/-- Properties without the values of the colours among them. -/
def Properties.colourless (properties : Properties) : Properties :=
  properties.map fun (name, e) => (name, if name ∈ colourKeys then e.colourless else e)

/-- A fragment without the values of its colours. -/
def Fragment.colourless (f : Fragment) : Fragment := { f with paint := f.paint.colourless }

/-- The settings in another mode. -/
def Settings.inMode (s : Settings) (mode : DisplayMode) : Settings := { s with mode }

/-- The context in another mode. -/
def DrawingContext.inMode (c : DrawingContext) (mode : DisplayMode) : DrawingContext :=
  { c with settings := c.settings.inMode mode }

/-! ## Colours -/

section

variable {f g : Value → Except Fault Expr}

theorem convertStops_agrees (h : ∀ v, (f v).map Expr.blank = (g v).map Expr.blank)
    (stops : List (Expr × Value)) :
    (Choice.convertStops f stops).map (List.map fun (stop, e) => (stop, e.blank)) =
      (Choice.convertStops g stops).map (List.map fun (stop, e) => (stop, e.blank)) := by
  induction stops with
  | nil => rfl
  | cons stop stops ih =>
    rw [Choice.convertStops, Choice.convertStops]
    apply except_view_bind (h stop.2)
    intro e₁ e₂ he
    apply except_view_bind ih
    intro rest₁ rest₂ hrest
    show Except.ok ((stop.1, e₁.blank) :: rest₁.map _) = Except.ok ((stop.1, e₂.blank) :: _)
    rw [he, hrest]

theorem convertLabels_agrees (h : ∀ v, (f v).map Expr.blank = (g v).map Expr.blank)
    (stops : List (Expr × Value)) :
    (Choice.convertLabels f stops).map (List.map fun (labels, e) => (labels, e.blank)) =
      (Choice.convertLabels g stops).map (List.map fun (labels, e) => (labels, e.blank)) := by
  induction stops with
  | nil => rfl
  | cons stop stops ih =>
    rw [Choice.convertLabels, Choice.convertLabels]
    apply except_view_bind_same
    intro labels
    apply except_view_bind (h stop.2)
    intro e₁ e₂ he
    apply except_view_bind ih
    intro rest₁ rest₂ hrest
    show Except.ok ((Value.list labels, e₁.blank) :: rest₁.map _) =
      Except.ok ((Value.list labels, e₂.blank) :: _)
    rw [he, hrest]

/-- Conversions that agree up to the options agree on the expression of a choice. -/
theorem expression_agrees (h : ∀ v, (f v).map Expr.blank = (g v).map Expr.blank) (c : Choice) :
    (c.expression f).map Expr.colourless = (c.expression g).map Expr.colourless := by
  have hstops := convertStops_agrees h c.stops
  have hdefault := h c.default
  rw [Choice.expression, Choice.expression]
  cases c.operator with
  | step =>
    apply except_view_bind hdefault
    intro base₁ base₂ hbase
    apply except_view_bind hstops
    intro stops₁ stops₂ heq
    -- Thresholds become values, whether the options are blanked before or after.
    have hmap (stops : List (Expr × Expr)) :
        (stops.map fun (stop, e) => (stop.toValue, e)).map (fun (stop, e) => (stop, e.blank)) =
          (stops.map fun (stop, e) => (stop, e.blank)).map fun (stop, e) => (stop.toValue, e) := by
      rw [List.map_map, List.map_map]
      rfl
    show Except.ok (Expr.step c.selector base₁.blank (List.map _ (List.map _ stops₁))) =
      Except.ok (Expr.step c.selector base₂.blank (List.map _ (List.map _ stops₂)))
    rw [hbase, hmap, hmap, heq]
  | case =>
    apply except_view_bind hstops
    intro stops₁ stops₂ heq
    apply except_view_bind hdefault
    intro e₁ e₂ he
    show Except.ok (Expr.cases (stops₁.map _) e₁.blank) =
      Except.ok (Expr.cases (stops₂.map _) e₂.blank)
    rw [heq, he]
  | pick =>
    apply except_view_bind (convertLabels_agrees h c.stops)
    intro stops₁ stops₂ heq
    apply except_view_bind hdefault
    intro e₁ e₂ he
    show Except.ok (Expr.pick c.selector (stops₁.map _) e₁.blank) =
      Except.ok (Expr.pick c.selector (stops₂.map _) e₂.blank)
    rw [heq, he]
  | unknown name => rfl

end

section

variable (c : DrawingContext) (mode : DisplayMode) (a : AttributeSet)

theorem registered_inMode (options : List Value) :
    registered (c.inMode mode) a options = registered c a options := by
  induction options with
  | nil => rfl
  | cons option options ih =>
    rw [registered, ih]
    rfl

theorem iconOf_inMode (arg : Argument) : iconOf arg a (c.inMode mode) = iconOf arg a c := by
  cases arg with
  | choice choice =>
    show pickedIcon choice a _ = pickedIcon choice a _
    rw [pickedIcon, pickedIcon, registered_inMode]
  | _ => rfl

/-- A symbol has no colour of the palette. -/
theorem drawSymbol_inMode (call : Call) :
    drawSymbol call a (c.inMode mode) = drawSymbol call a c := by
  rw [drawSymbol, drawSymbol, iconOf_inMode]

end

variable {c : DrawingContext} (hc : c.palette.IsUniform) (m₁ m₂ : DisplayMode)

include hc

theorem contextColourOf_agrees (v : Value) :
    ((c.inMode m₁).colourOf v).map Expr.blank = ((c.inMode m₂).colourOf v).map Expr.blank :=
  except_view_bind (Palette.resolveValue_agrees hc m₁ m₂ v) fun _ _ _ => rfl

theorem contextColour_agrees (token : String) :
    ((c.inMode m₁).colour token).map Expr.colourless =
      ((c.inMode m₂).colour token).map Expr.colourless :=
  except_view_bind (Palette.resolve_agrees hc m₁ m₂ token) fun _ _ _ => rfl

theorem argumentColour_agrees (arg : Argument) :
    (arg.colour (c.inMode m₁)).map Expr.colourless =
      (arg.colour (c.inMode m₂)).map Expr.colourless := by
  cases arg with
  | choice picked => exact expression_agrees (contextColourOf_agrees hc m₁ m₂) picked
  | _ => exact contextColour_agrees hc m₁ m₂ _

/-! ## Instructions -/

theorem drawFill_agrees (call : Call) :
    (drawFill call (c.inMode m₁)).map (List.map Fragment.colourless) =
      (drawFill call (c.inMode m₂)).map (List.map Fragment.colourless) := by
  rw [drawFill, drawFill]
  apply except_view_bind_same
  intro transparency
  apply except_view_bind (argumentColour_agrees hc m₁ m₂ _)
  intro e₁ e₂ he
  cases fillOpacity? transparency with
  | none => rfl
  | some opacity =>
    show Except.ok [Fragment.mk .fill [("fill-color", e₁.colourless), _] []] =
      Except.ok [Fragment.mk .fill [("fill-color", e₂.colourless), _] []]
    rw [he]

theorem drawLine_agrees (call : Call) :
    (drawLine call (c.inMode m₁)).map (List.map Fragment.colourless) =
      (drawLine call (c.inMode m₂)).map (List.map Fragment.colourless) := by
  rw [drawLine, drawLine]
  apply except_view_bind_same
  intro width
  apply except_view_bind (argumentColour_agrees hc m₁ m₂ _)
  intro e₁ e₂ he
  cases (call.arg 0 .null).lineStyle? with
  | none => rfl
  | some style =>
    cases style with
    | solid =>
      show Except.ok [Fragment.mk .line [("line-color", e₁.colourless), _] _] =
        Except.ok [Fragment.mk .line [("line-color", e₂.colourless), _] _]
      rw [he]
    | dashed | dotted =>
      show Except.ok [Fragment.mk .line [("line-color", e₁.colourless), _, _] _] =
        Except.ok [Fragment.mk .line [("line-color", e₂.colourless), _, _] _]
      rw [he]

theorem textFragment_agrees (text : Expr) (params : List Argument) :
    (textFragment text params (c.inMode m₁)).map (List.map Fragment.colourless) =
      (textFragment text params (c.inMode m₂)).map (List.map Fragment.colourless) := by
  rw [textFragment, textFragment]
  -- The placement of the text, its style and its size do not depend on the mode.
  refine except_view_bind_same fun hjust => ?_
  refine except_view_bind_same fun vjust => ?_
  refine except_view_bind_same fun space => ?_
  refine except_view_bind_same fun height => ?_
  refine except_view_bind_same fun x => ?_
  refine except_view_bind_same fun y => ?_
  refine except_view_bind_same fun size => ?_
  apply except_view_bind (argumentColour_agrees hc m₁ m₂ _)
  intro e₁ e₂ he
  apply except_view_bind (contextColour_agrees hc m₁ m₂ _)
  intro halo₁ halo₂ hhalo
  show Except.ok [Fragment.mk .symbol
      [("text-color", e₁.colourless), ("text-halo-color", halo₁.colourless), _] _] =
    Except.ok [Fragment.mk .symbol
      [("text-color", e₂.colourless), ("text-halo-color", halo₂.colourless), _] _]
  rw [he, hhalo]

theorem drawTextExpr_agrees (text : Option Expr) (params : List Argument) :
    (drawTextExpr text params (c.inMode m₁)).map (List.map Fragment.colourless) =
      (drawTextExpr text params (c.inMode m₂)).map (List.map Fragment.colourless) := by
  cases text with
  | none => rfl
  | some text => exact textFragment_agrees hc m₁ m₂ text params

theorem drawText_agrees (call : Call) (a : AttributeSet) :
    (drawText call a (c.inMode m₁)).map (List.map Fragment.colourless) =
      (drawText call a (c.inMode m₂)).map (List.map Fragment.colourless) :=
  except_view_bind_same fun text => drawTextExpr_agrees hc m₁ m₂ text _

theorem drawFormattedText_agrees (call : Call) (a : AttributeSet) :
    (drawFormattedText call a (c.inMode m₁)).through (List.map Fragment.colourless) =
      (drawFormattedText call a (c.inMode m₂)).through (List.map Fragment.colourless) :=
  Report.through_bind_same fun text =>
    Report.through_lift (drawTextExpr_agrees hc m₁ m₂ (text.bind notEmpty) _)

/-- An instruction reads the mode only where it looks up a colour. -/
theorem drawPlain_agrees (call : Call) (a : AttributeSet) :
    (call.drawPlain a (c.inMode m₁)).through (List.map Fragment.colourless) =
      (call.drawPlain a (c.inMode m₂)).through (List.map Fragment.colourless) := by
  rw [Call.drawPlain, Call.drawPlain]
  cases call.primitive with
  | sy =>
    show (drawSymbol call a _).through _ = (drawSymbol call a _).through _
    rw [drawSymbol_inMode, drawSymbol_inMode]
  | ls => exact Report.through_lift (drawLine_agrees hc m₁ m₂ call)
  | lc => rfl
  | ac => exact Report.through_lift (drawFill_agrees hc m₁ m₂ call)
  | ap => rfl
  | tx => exact Report.through_lift (drawText_agrees hc m₁ m₂ call a)
  | te => exact drawFormattedText_agrees hc m₁ m₂ call a
  | cs => rfl

theorem drawAllPlain_agrees (a : AttributeSet) (calls : List Call) :
    (Call.drawAllPlain a (c.inMode m₁) calls).through (List.map Fragment.colourless) =
      (Call.drawAllPlain a (c.inMode m₂) calls).through (List.map Fragment.colourless) := by
  induction calls with
  | nil => rfl
  | cons call calls ih =>
    rw [Call.drawAllPlain, Call.drawAllPlain]
    exact Report.through_append (drawPlain_agrees hc m₁ m₂ call a) ih

omit hc in
/-- A procedure reads the thresholds of the settings, never the mode. -/
theorem evaluate_inMode (p : Procedure) (a : AttributeSet) (s : Settings) (t : TableSet)
    (mode : DisplayMode) : p.evaluate a (s.inMode mode) t = p.evaluate a s t := by
  cases p <;> rfl

/-- In any two modes a call notes the same, and draws the same up to colours or fails alike. -/
theorem draw_agrees (call : Call) (a : AttributeSet) :
    (call.draw a (c.inMode m₁)).through (List.map Fragment.colourless) =
      (call.draw a (c.inMode m₂)).through (List.map Fragment.colourless) := by
  rw [Call.draw, Call.draw]
  apply Report.through_bind_same
  intro procedure?
  cases procedure? with
  | none => exact drawPlain_agrees hc m₁ m₂ call a
  | some procedure =>
    show (procedure.evaluate a (c.settings.inMode m₁) c.tableSet >>= _).through _ =
      (procedure.evaluate a (c.settings.inMode m₂) c.tableSet >>= _).through _
    rw [evaluate_inMode, evaluate_inMode]
    exact Report.through_bind_same fun calls => drawAllPlain_agrees hc m₁ m₂ a calls

theorem drawAll_agrees (a : AttributeSet) (calls : List Call) :
    (Call.drawAll a (c.inMode m₁) calls).through (List.map Fragment.colourless) =
      (Call.drawAll a (c.inMode m₂) calls).through (List.map Fragment.colourless) := by
  induction calls with
  | nil => rfl
  | cons call calls ih =>
    rw [Call.drawAll, Call.drawAll]
    exact Report.through_append (draw_agrees hc m₁ m₂ call a) ih

end ChartStyle
