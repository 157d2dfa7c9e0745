import ChartStyle.Proofs.CheckedCalls

/-!
# The output of procedures

The check of a table sees of a procedure no more than its name, since its calls come into being only
with a feature. They need no check: whatever the attributes, the table set and the settings, each call
of a procedure is complete, passes the check unless the renderer is to pick among options, and is
drawn with any palette that has the tokens of `Procedure.drawnTokens`, in every mode and with any
symbols (`Procedure.evaluate_usable`). The options that the renderer picks among are such tokens where
they are colours, and widths that lines have where they are widths.
-/

set_option autoImplicit false

namespace ChartStyle

namespace Call

/-- The argument that gives the colour, for the calls that have one. -/
def colourArgument? (call : Call) : Option Argument :=
  match call.primitive with
  | .ac => call.args[0]?
  | .ls => call.args[2]?
  | .tx => call.args[7]?
  | .te => call.args[8]?
  | _ => none

/-- The argument that gives the width of a line. -/
def widthArgument? (call : Call) : Option Argument :=
  match call.primitive with
  | .ls => call.args[1]?
  | _ => none

/-- What is asked of a call that nobody has checked: it is complete and runs no procedure, its fixed
parameters pass the check, its options are ones that can be drawn, and so it is drawn. -/
structure IsUsable (call : Call) (a : AttributeSet) (palette : Palette) : Prop where
  plain : call.primitive ≠ .cs
  arity : call.primitive.arity.1 ≤ call.args.length ∧
    call.args.length ≤ call.primitive.arity.2
  checked : (∀ c, .choice c ∉ call.args) → ∀ rule, call.check palette rule = .ok ()
  colours : ∀ c, call.colourArgument? = some (.choice c) →
    ∀ v ∈ c.options, IsTextIn Procedure.drawnTokens v
  widths : ∀ c, call.widthArgument? = some (.choice c) →
    ∀ v ∈ c.options, Procedure.IsLineWidth v
  drawn : ∀ c : DrawingContext, c.palette = palette → IsOk (call.draw a c).outcome

end Call

namespace Argument

/-- What is offered without a choice is a literal. -/
theorem Offers.exists_literal {property : Value → Prop} {arg : Argument} (h : arg.Offers property)
    (hfixed : ∀ c, arg ≠ .choice c) : ∃ v, arg = .literal v ∧ property v := by
  cases arg with
  | literal v => exact ⟨v, rfl, h⟩
  | choice c => exact absurd rfl (hfixed c)
  | _ => exact h.elim

theorem checkColour_of_has {palette : Palette} {token : String} (h : palette.has token = true)
    (rule : String) : (Argument.text token).checkColour palette rule = .ok () := by
  show (if palette.has token then _ else _) = _
  rw [if_pos h]

end Argument

namespace Procedure

variable {a : AttributeSet} {call : Call} {palette : Palette}

theorem IsOwn.arity (h : IsOwn a call) :
    call.primitive.arity.1 ≤ call.args.length ∧ call.args.length ≤ call.primitive.arity.2 := by
  cases h <;> simp [Primitive.arity, lineCall, textCall]

/-- Colours are picked among the tokens of the lists. -/
theorem IsOwn.offers_colour (h : IsOwn a call) {arg : Argument}
    (harg : call.colourArgument? = some arg) : arg.Offers (IsTextIn ownColours) := by
  cases h with
  | fill hcolour =>
    obtain rfl := Option.some.inj harg
    exact hcolour
  | line hstyle hwidth hcolour =>
    obtain rfl := Option.some.inj harg
    exact hcolour
  | text htext hchars hcolour =>
    obtain rfl := Option.some.inj harg
    exact hcolour
  | pattern => cases harg
  | symbol => cases harg
  | flare => cases harg

theorem IsOwn.offers_width (h : IsOwn a call) {arg : Argument}
    (harg : call.widthArgument? = some arg) : arg.Offers IsLineWidth := by
  cases h with
  | line hstyle hwidth hcolour =>
    obtain rfl := Option.some.inj harg
    exact hwidth
  | fill => cases harg
  | pattern => cases harg
  | text => cases harg
  | symbol => cases harg
  | flare => cases harg

/-- A call of a procedure without a choice passes the check. -/
theorem IsOwn.check_eq_ok (h : IsOwn a call)
    (htokens : ∀ token ∈ drawnTokens, palette.has token = true)
    (hfixed : ∀ c, .choice c ∉ call.args) (rule : String) : call.check palette rule = .ok () := by
  have hcolour {arg : Argument} (hoffers : arg.Offers (IsTextIn ownColours))
      (hmem : arg ∈ call.args) : arg.checkColour palette rule = .ok () := by
    have hne : ∀ c, arg ≠ .choice c := by
      rintro c rfl
      exact hfixed c hmem
    obtain ⟨v, rfl, token, htoken, rfl⟩ := hoffers.exists_literal hne
    exact Argument.checkColour_of_has (htokens token (List.mem_append_left _ htoken)) rule
  -- Only fills, lines and texts have parameters that are checked.
  cases h with
  | @fill colour hoffers =>
    show (do Argument.checkColour colour palette rule; _) = _
    rw [hcolour hoffers List.mem_cons_self]
    rfl
  | @line style width colour hstyle hwidth hoffers =>
    have hne : ∀ c, width ≠ .choice c := by
      rintro c rfl
      exact hfixed c (List.mem_cons_of_mem _ List.mem_cons_self)
    obtain ⟨v, rfl, units, rfl, hunits⟩ := hwidth.exists_literal hne
    have hknown : (Argument.text style).lineStyle?.isNone = false := by
      rw [Option.isNone_eq_false_iff]
      exact lineStyle?_isSome hstyle
    have hdrawn : (lineWidth? units).isNone = false := Option.isNone_eq_false_iff.2 hunits
    have hlast : colour.checkColour palette rule = .ok () := by
      apply hcolour hoffers
      simp [lineCall]
    show Call.checkLine ⟨.ls, [.text style, .literal (.int units), colour]⟩ palette rule = _
    simp only [Call.checkLine, Call.arg, List.getD_cons_zero, List.getD_cons_succ, hknown,
      Bool.false_eq_true, if_false, hlast]
    show (if (lineWidth? units).isNone then _ else _) = _
    rw [hdrawn]
    rfl
  | @text text colour hjust vjust chars x y group htext hchars hoffers =>
    show colour.checkColour palette rule = .ok ()
    apply hcolour hoffers
    simp [textCall]
  | pattern => rfl
  | symbol => rfl
  | flare => rfl

/-- Each call that a procedure gives can be used with any palette that has the tokens of procedures
and texts, in every mode and with any symbols. -/
theorem evaluate_usable (p : Procedure) (a : AttributeSet) (s : Settings) (t : TableSet)
    {calls : List Call} (h : (p.evaluate a s t).outcome = .ok calls) {palette : Palette}
    (huniform : palette.IsUniform) (htokens : ∀ token ∈ drawnTokens, palette.has token = true) :
    ∀ call ∈ calls, call.IsUsable a palette := by
  intro call hcall
  have hown : IsOwn a call := p.evaluate_gives_own a s t calls h call hcall
  have hwiden (v : Value) (hv : IsTextIn ownColours v) : IsTextIn drawnTokens v := by
    obtain ⟨token, htoken, rfl⟩ := hv
    exact ⟨token, List.mem_append_left _ htoken, rfl⟩
  refine ⟨hown.primitive_ne_cs, hown.arity, fun hfixed => hown.check_eq_ok htokens hfixed, ?_, ?_, ?_⟩
  · intro c hc v hv
    exact hwiden v ((hown.offers_colour hc).options v hv)
  · intro c hc v hv
    exact (hown.offers_width hc).options v hv
  · rintro c rfl
    rw [Call.draw_of_plain a c hown.primitive_ne_cs]
    exact hown.draws huniform htokens

/-- A dredged area whose depth only the renderer knows. -/
def dredgedArea : AttributeSet := ⟨"DRGARE", [("DRVAL1", .perFeature)]⟩

/-- Its fill, whose colour the renderer picks, its pattern and its outline can be used with the
bundled palette. -/
theorem evaluate_usable_dredgedArea :
    Bundled.palette.IsUniform ∧ (∀ token ∈ drawnTokens, Bundled.palette.has token = true) ∧
      ∃ calls, (depare01.evaluate dredgedArea {} .areas).outcome = .ok calls ∧
        calls.map Call.primitive = [.ac, .ap, .ls] ∧
        ∀ call ∈ calls, call.IsUsable dredgedArea Bundled.palette := by
  refine ⟨Bundled.palette_isUniform, Bundled.palette_has_drawnTokens, ?_⟩
  have hprimitives : (depare01.evaluate dredgedArea {} .areas).outcome.toOption.map
      (List.map Call.primitive) = some [.ac, .ap, .ls] := by decide +kernel
  cases h : (depare01.evaluate dredgedArea {} .areas).outcome with
  | error fault =>
    rw [h] at hprimitives
    cases hprimitives
  | ok calls =>
    rw [h] at hprimitives
    exact ⟨calls, rfl, Option.some.inj hprimitives, evaluate_usable depare01 dredgedArea {} .areas h
      Bundled.palette_isUniform Bundled.palette_has_drawnTokens⟩

end Procedure

end ChartStyle
