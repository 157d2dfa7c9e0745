import ChartStyle.Proofs.DrawnCalls

/-!
# Texts that attributes give

A text call that names an attribute draws one fragment. Where the value is not known, its text is
the expression by which the renderer reads the attribute; a known value that is no list is written
out as a plain text (`Call.draw_attributeText`). A known list goes into the style as it stands, where
the renderer takes it for an expression, so that the name of a feature can read any other attribute
(`Call.draw_attributeText_injected`).
-/

set_option autoImplicit false

namespace ChartStyle

/-- The text of a fragment as it stands in the style document. -/
def Fragment.textField? (f : Fragment) : Option Value :=
  (f.layout.lookup "text-field").map Expr.toValue

/-- A known value as a text: lists stay lists, everything else is written out. -/
def Value.drawnText : Value → Expr
  | .list items => .value (.list items)
  | v => .text v.plain

/-- The text that an attribute gives. -/
def AttributeSet.drawnText (a : AttributeSet) (code : String) : Expr :=
  match a.known? code with
  | none => .get code
  | some v => v.drawnText

/-- A known value is never missing or empty, so that there is a text to draw. -/
theorem textOfValue_of_isKnown {v : Value} (h : v.isKnown = true) :
    textOfValue v = some v.drawnText := by
  cases v with
  | text s =>
    have hs : s ≠ "" := by simpa [Value.isKnown, Value.isStated] using h
    rw [textOfValue, if_neg hs]
    rfl
  | null | perFeature => cases h
  | _ => rfl

theorem textOfArgument_attribute (a : AttributeSet) (code : String) :
    textOfArgument (.attribute code) a = .ok (some (a.drawnText code)) := by
  rw [textOfArgument, AttributeSet.drawnText]
  cases hknown : a.known? code with
  | none => rfl
  | some v =>
    have hv : v.isKnown = true := by
      rw [AttributeSet.known?_eq] at hknown
      exact (Option.filter_eq_some_iff.1 hknown).2
    exact congrArg Except.ok (textOfValue_of_isKnown hv)

namespace Call

variable {call : Call} {a : AttributeSet} {c : DrawingContext} {code : String}
  {fragments : List Fragment}

/-- A text call that names an attribute draws the text that the attribute gives. -/
theorem outcome_draw_text (hprimitive : call.primitive = .tx)
    (hcode : call.arg 0 .null = .attribute code) :
    (call.draw a c).outcome = textFragment (a.drawnText code) (call.args.drop 1) c := by
  have hplain : call.primitive ≠ .cs := by
    rw [hprimitive]
    exact nofun
  rw [draw_of_plain a c hplain, drawPlain, hprimitive]
  show drawText call a c = _
  rw [drawText, hcode, textOfArgument_attribute]
  rfl

/-- A text call that names an attribute draws one fragment. Its text in the style document is the
expression that reads the attribute when its value is not known, and a plain text when it is known
and no list; a known list is the text itself. -/
theorem draw_attributeText (hprimitive : call.primitive = .tx)
    (hcode : call.arg 0 .null = .attribute code) (hdraw : (call.draw a c).outcome = .ok fragments) :
    ∃ f field, fragments = [f] ∧ f.textField? = some field ∧
      (a.known? code = none → field = .list [.text "get", .text code]) ∧
      (∀ v, a.known? code = some v → (∀ items, v ≠ .list items) → field = .text v.plain) ∧
      ∀ items, a.known? code = some (.list items) → field = .list items := by
  rw [outcome_draw_text hprimitive hcode] at hdraw
  obtain ⟨f, rfl, hf⟩ := exists_of_textFragment hdraw
  refine ⟨f, (a.drawnText code).toValue, rfl, by rw [Fragment.textField?, hf.text]; rfl, ?_, ?_, ?_⟩
  · intro hunknown
    rw [AttributeSet.drawnText, hunknown]
    rfl
  · intro v hknown hlist
    rw [AttributeSet.drawnText, hknown]
    cases v with
    | list items => exact absurd rfl (hlist items)
    | _ => rfl
  · intro items hknown
    rw [AttributeSet.drawnText, hknown]
    rfl

/-- A call that writes the name of a feature. -/
def nameCall : Call := ⟨.tx, [.attribute "OBJNAM"]⟩

/-- A chart by day with the colours of texts. -/
def nameContext : DrawingContext where
  settings := {}
  palette :=
    { day := [("CHBLK", "#000000"), ("NODTA", "#93aebb")]
      dusk := []
      night := [] }
  registry := default
  tableSet := .areas

/-- A sea area with a name. -/
def namedArea (name : Value) : AttributeSet := ⟨"SEAARE", [("OBJNAM", name)]⟩

theorem exists_draw_nameCall (name : Value) :
    ∃ fragments, (nameCall.draw (namedArea name) nameContext).outcome = .ok fragments := by
  rw [outcome_draw_text rfl rfl]
  refine (textFragment_isOk_iff _ [] nameContext).2 ⟨by simp, by decide, ?_, ?_⟩
  · exact ⟨.text "#000000", rfl⟩
  · exact ⟨.text "#93aebb", rfl⟩

/-- The name of a sea area is written on it as it is. -/
theorem draw_attributeText_northSea :
    ∃ f, (nameCall.draw (namedArea (.text "North Sea")) nameContext).outcome = .ok [f] ∧
      f.textField? = some (.text "North Sea") := by
  obtain ⟨fragments, hdraw⟩ := exists_draw_nameCall (.text "North Sea")
  obtain ⟨f, field, rfl, hfield, -, hplain, -⟩ := draw_attributeText rfl rfl hdraw
  refine ⟨f, hdraw, ?_⟩
  rw [hfield, hplain (.text "North Sea") rfl nofun]
  rfl

/-- A name that is a list of two texts, known when the style is built, has the renderer write
another attribute. -/
theorem draw_attributeText_injected :
    (namedArea (Expr.get "INFORM").toValue).isKnown "OBJNAM" = true ∧
      ∃ f, (nameCall.draw (namedArea (Expr.get "INFORM").toValue) nameContext).outcome = .ok [f] ∧
        f.textField? = some (Expr.get "INFORM").toValue := by
  obtain ⟨fragments, hdraw⟩ := exists_draw_nameCall (Expr.get "INFORM").toValue
  have htext := hdraw
  rw [outcome_draw_text rfl rfl] at htext
  obtain ⟨f, rfl, hf⟩ := exists_of_textFragment htext
  refine ⟨rfl, f, hdraw, ?_⟩
  rw [Fragment.textField?, hf.text]
  rfl

end Call

end ChartStyle
