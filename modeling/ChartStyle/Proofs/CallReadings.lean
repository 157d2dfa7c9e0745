import ChartStyle.Proofs.CheckedCalls

/-!
# What calls read

The readings of each call (`Call.readings`). A call that the tables cover does its readings, and
then it draws what it draws for the mended attributes (`Call.IsReady.draw_mends`): so it fails just
when a value that it reads, or a threshold, lies beyond the range of the doubles
(`Call.IsReady.draw_isOk_iff`), and each value that it cannot use counts as its stand-in and is
noted (`Call.IsReady.draw_heeds`).
-/

set_option autoImplicit false

namespace ChartStyle

/-! ## Mending and what is noted -/

namespace Mends

variable {α : Type} {a : AttributeSet} {rs : List Reading} {x mended : Report α}

theorem isOk_iff (h : Mends a rs x mended) : IsOk x.outcome ↔ ∀ r ∈ rs, ¬ a.Exceeds r := by
  rw [← AttributeSet.readAll_outcome_eq_ok_iff]
  constructor
  · rintro ⟨value, hvalue⟩
    rw [h.eq] at hvalue
    obtain ⟨⟨⟩, hread, -⟩ := Report.outcome_bind_eq_ok_iff.1 hvalue
    exact hread
  · intro hread
    obtain ⟨value, hvalue⟩ := h.settled hread
    exact ⟨value, h.outcome_eq_ok hvalue hread⟩

/-- Within the range the value is that of the mended operation, and the findings are noted. -/
theorem heeds (h : Mends a rs x mended) (hrs : ∀ r ∈ rs, ¬ a.Exceeds r) :
    x.outcome = mended.outcome ∧
      x.events = (rs.filterMap a.finding?).map Event.diagnostic := by
  have hread := AttributeSet.readAll_outcome_eq_ok_iff.2 hrs
  obtain ⟨value, hvalue⟩ := h.settled hread
  constructor
  · rw [h.outcome_eq_ok hvalue hread, hvalue]
    rfl
  · rw [h.eq, hvalue, Report.bind_of_ok hread, ← AttributeSet.readAll_events hread]
    exact List.append_nil _

end Mends

/-- The tables have what procedures and texts are drawn with, and the thresholds are numbers. -/
structure DrawingContext.IsComplete (c : DrawingContext) : Prop where
  uniform : c.palette.IsUniform
  tokens : ∀ token ∈ Procedure.drawnTokens, c.palette.has token = true
  symbols : ∀ name ∈ Procedure.ownPattern :: Procedure.ownSymbols,
    (c.registry.find? name).isSome = true
  numeric : c.settings.IsNumeric

/-! ## Procedures -/

namespace Procedure

variable {a b : AttributeSet} {c : DrawingContext} {call : Call}

/-- The attributes that the calls of procedures name are not known. -/
theorem IsOwn.known?_eq_none (h : IsOwn a call) {code : String}
    (hcode : .attribute code ∈ call.args) : a.known? code = none := by
  have hoffers {property : Value → Prop} : ¬ (Argument.attribute code).Offers property := id
  cases h with
  | fill hcolour =>
    obtain rfl := List.mem_singleton.1 hcode
    exact absurd hcolour hoffers
  | pattern => cases List.mem_singleton.1 hcode
  | line hstyle hwidth hcolour =>
    simp only [lineCall, Argument.text, List.mem_cons, List.not_mem_nil, or_false, reduceCtorEq,
      false_or] at hcode
    rcases hcode with rfl | rfl
    · exact absurd hwidth hoffers
    · exact absurd hcolour hoffers
  | text htext hchars hcolour =>
    simp only [textCall, Argument.int, Argument.text, List.mem_cons, List.not_mem_nil, or_false,
      reduceCtorEq, false_or] at hcode
    rcases hcode with rfl | rfl
    · exact htext
    · exact absurd hcolour hoffers
  | symbol hsymbol =>
    obtain rfl := List.mem_singleton.1 hcode
    exact absurd hsymbol hoffers
  | flare hsymbol =>
    simp only [List.mem_cons, List.not_mem_nil, or_false, reduceCtorEq] at hcode
    obtain rfl := hcode
    exact absurd hsymbol hoffers

theorem IsOwn.primitive_ne_te (h : IsOwn a call) : call.primitive ≠ .te := by
  cases h <;> simp [lineCall, textCall]

/-- Calls of procedures are drawn alike for attributes of one object class, and without a note. -/
theorem drawAllPlain_eq_pure (hc : c.IsComplete) (hclass : b.objectClass = a.objectClass)
    {calls : List Call} (ha : ∀ call ∈ calls, IsOwn a call) (hb : ∀ call ∈ calls, IsOwn b call) :
    ∃ fragments, Call.drawAllPlain a c calls = pure fragments ∧
      Call.drawAllPlain b c calls = pure fragments := by
  induction calls with
  | nil => exact ⟨[], rfl, rfl⟩
  | cons call calls ih =>
    obtain ⟨ha, has⟩ := List.forall_mem_cons.1 ha
    obtain ⟨hb, hbs⟩ := List.forall_mem_cons.1 hb
    obtain ⟨rest, harest, hbrest⟩ := ih has hbs
    obtain ⟨fragments, hfragments⟩ :=
      Report.exists_eq_pure (ha.events_eq_nil hc.symbols) (ha.draws hc.uniform hc.tokens)
    have hsame : call.drawPlain b c = call.drawPlain a c :=
      Call.drawPlain_congr c hclass ha.primitive_ne_te fun code hcode => by
        rw [ha.known?_eq_none hcode, hb.known?_eq_none hcode]
    refine ⟨fragments ++ rest, ?_, ?_⟩
    · simp only [Call.drawAllPlain, hfragments, harest, pure_bind]
    · simp only [Call.drawAllPlain, hsame, hfragments, hbrest, pure_bind]

end Procedure

/-! ## Turns -/

theorem isReader_turn (code : String) :
    IsReader (Turn.ofArgument (.attribute code)) ⟨code, .real (some (.whole 0))⟩ Value.asReal
      (fun x => .fixed (if (x.getD 0).isWhole then .int (x.getD 0).truncate else .real (x.getD 0)))
      (.attribute code) := by
  refine ⟨fun a => ?_, fun v => rfl, 0, rfl, rfl⟩
  show (if a.isKnown code then _ else _) = _
  rw [AttributeSet.isKnown_eq, AttributeSet.getReal_eq]
  dsimp only
  cases a.known? code with
  | none => rfl
  | some v => rfl

namespace Call

/-! ## Readings -/

/-- The readings of a call for a feature: the turn of a symbol, and what a procedure reads. -/
def readings (call : Call) (a : AttributeSet) : List Reading :=
  match call.primitive with
  | .sy =>
    match call.arg 1 (.int 0) with
    | .attribute code => [⟨code, .real (some (.whole 0))⟩]
    | _ => []
  | .cs =>
    match call.procedure? with
    | .ok (some procedure) => procedure.readings a
    | _ => []
  | _ => []

/-- What the call reads lies in the range of the doubles, and so do the thresholds where the
renderer is to pick by depth. -/
structure IsWithin (call : Call) (a : AttributeSet) (s : Settings) : Prop where
  readings : ∀ r ∈ call.readings a, ¬ a.Exceeds r
  thresholds : ∀ procedure, call.procedure? = .ok (some procedure) →
    procedure.PicksByDepth a → s.InRange

/-- The tables have what the call needs, and it writes no numbers. -/
def IsCovered (call : Call) (registry : Registry) (palette : Palette) : Prop :=
  match call.primitive with
  | .sy | .lc | .ap => (registry.find? (call.arg 0 .null).token).isSome = true
  | .ls => (call.arg 2 .null).HasColour palette
  | .ac => (call.arg 0 .null).HasColour palette
  | .tx => TextIsDrawable (call.args.drop 1) palette
  | .te => TextIsDrawable (call.args.drop 2) palette ∧
      ∀ f ∈ Template.fields call.templatePieces, f.conversion = .text
  | .cs => True

instance (call : Call) (registry : Registry) (palette : Palette) :
    Decidable (call.IsCovered registry palette) :=
  match h : call.primitive with
  | .sy | .lc | .ap => decidable_of_iff ((registry.find? (call.arg 0 .null).token).isSome = true)
      (by simp only [IsCovered, h])
  | .ls => decidable_of_iff ((call.arg 2 .null).HasColour palette) (by simp only [IsCovered, h])
  | .ac => decidable_of_iff ((call.arg 0 .null).HasColour palette) (by simp only [IsCovered, h])
  | .tx => decidable_of_iff (TextIsDrawable (call.args.drop 1) palette)
      (by simp only [IsCovered, h])
  | .te => decidable_of_iff (TextIsDrawable (call.args.drop 2) palette ∧
      ∀ f ∈ Template.fields call.templatePieces, f.conversion = .text) (by simp only [IsCovered, h])
  | .cs => decidable_of_iff True (by simp only [IsCovered, h])

/-- The call was read and checked, and the tables cover it. -/
structure IsReady (call : Call) (c : DrawingContext) : Prop where
  settled : call.IsSettled
  checked : ∃ rule, call.check c.palette rule = .ok ()
  covered : call.IsCovered c.registry c.palette

/-! ## Drawing -/

section

variable {call : Call} {c : DrawingContext}

/-- A covered call that is neither a symbol nor a procedure reads nothing and notes nothing. -/
theorem IsReady.drawPlain_eq_pure (h : call.IsReady c) (hc : c.IsComplete)
    (hsy : call.primitive ≠ .sy) (hcs : call.primitive ≠ .cs) (a : AttributeSet) :
    ∃ fragments, call.drawPlain a c = pure fragments := by
  obtain ⟨h, ⟨rule, hcheck⟩, hcovered⟩ := h
  unfold check at hcheck
  unfold IsCovered at hcovered
  unfold drawPlain
  cases hprimitive : call.primitive with
  | sy => exact absurd hprimitive hsy
  | ls =>
    rw [hprimitive] at hcheck hcovered
    exact Report.exists_eq_pure rfl ((h.drawLine_isOk_iff hprimitive hc.uniform hcheck).2 hcovered)
  | lc =>
    rw [hprimitive] at hcovered
    obtain ⟨entry, hentry⟩ := Option.isSome_iff_exists.1 hcovered
    simp only [drawComplexLine, hentry]
    exact ⟨_, rfl⟩
  | ac =>
    rw [hprimitive] at hcheck hcovered
    exact Report.exists_eq_pure rfl ((h.drawFill_isOk_iff hprimitive hc.uniform hcheck).2 hcovered)
  | ap =>
    rw [hprimitive] at hcovered
    obtain ⟨entry, hentry⟩ := Option.isSome_iff_exists.1 hcovered
    simp only [drawPattern, hentry]
    exact ⟨_, rfl⟩
  | tx =>
    rw [hprimitive] at hcheck hcovered
    exact Report.exists_eq_pure rfl
      (h.drawText_isOk hprimitive hc.uniform hc.tokens hcheck (.inr hcovered) a c.tableSet)
  | te =>
    rw [hprimitive] at hcheck hcovered
    obtain ⟨hdrawable, htexts⟩ := hcovered
    obtain ⟨es, hes⟩ := Template.fillAll_of_texts (a := a) htexts call.templateCodes
    dsimp only
    rw [drawFormattedText_eq, hes, pure_bind]
    have houtcome := congrArg Report.outcome hes
    exact Report.exists_eq_pure rfl
      (h.drawFilled_isOk hc.uniform hc.tokens hcheck (.inr hdrawable) houtcome _)
  | cs => exact absurd hprimitive hcs

/-- A covered symbol reads its turn. -/
theorem IsReady.drawSymbol_mends (h : call.IsReady c) (hsy : call.primitive = .sy)
    (a : AttributeSet) :
    Mends a (call.readings a) (drawSymbol call a c)
      (drawSymbol call (a.mend (call.readings a)) c) := by
  obtain ⟨h, -, hcovered⟩ := h
  have hicon : ∃ icon, ∀ b, iconOf (call.arg 0 .null) b c = pure (some icon) := by
    rw [IsCovered, hsy] at hcovered
    obtain ⟨entry, hentry⟩ := Option.isSome_iff_exists.1 hcovered
    refine ⟨⟨.text (call.arg 0 .null).token, .value (SymbolEntry.pointValue entry.offset)⟩,
      fun b => ?_⟩
    have hfixed : iconOf (call.arg 0 .null) b c = fixedIcon (call.arg 0 .null).token b c := by
      obtain ⟨v, harg⟩ | ⟨code, harg⟩ := h.arg_cases 0 .null
      all_goals rw [harg]; rfl
    rw [hfixed, fixedIcon, hentry]
  have hturn : Mends a (call.readings a) (Turn.ofArgument (call.arg 1 (.int 0)) a)
      (Turn.ofArgument (call.arg 1 (.int 0)) (a.mend (call.readings a))) := by
    unfold readings
    rw [hsy]
    obtain ⟨v, harg⟩ | ⟨code, harg⟩ := h.arg_cases 1 (.int 0)
    · rw [harg]
      exact .pure _
    · rw [harg]
      exact (isReader_turn code).mends (by simp) a
  obtain ⟨icon, hicon⟩ := hicon
  simp only [drawSymbol, hicon, pure_bind]
  exact hturn.bind_pure fun turn _ _ => ⟨_, rfl, rfl⟩

/-- A covered call does its readings, and then it draws what it draws for the mended attributes. -/
theorem IsReady.draw_mends (h : call.IsReady c) (hc : c.IsComplete) {a : AttributeSet}
    (hthresholds : ∀ procedure, call.procedure? = .ok (some procedure) →
      procedure.PicksByDepth a → c.settings.InRange) :
    Mends a (call.readings a) (call.draw a c) (call.draw (a.mend (call.readings a)) c) := by
  by_cases hcs : call.primitive = .cs
  · obtain ⟨name, procedure, -, hprocedure, -⟩ := h.settled.procedure hcs
    have hreadings : call.readings a = procedure.readings a := by
      simp only [readings, hcs, hprocedure]
    rw [hreadings, draw_of_procedure a c hprocedure, draw_of_procedure _ c hprocedure]
    refine (procedure.evaluate_mends hc.numeric (hthresholds procedure hprocedure)).bind_pure ?_
    intro calls hcalls hmended
    have hown := procedure.evaluate_gives_own a _ _ calls hcalls
    have hown' := procedure.evaluate_gives_own _ _ _ calls (congrArg Report.outcome hmended)
    have hclass : (a.mend (procedure.readings a)).objectClass = a.objectClass := rfl
    exact Procedure.drawAllPlain_eq_pure hc hclass hown hown'
  · rw [draw_of_plain a c hcs, draw_of_plain _ c hcs]
    by_cases hsy : call.primitive = .sy
    · simp only [drawPlain, hsy]
      exact h.drawSymbol_mends hsy a
    · have hreadings : call.readings a = [] := by
        unfold readings
        split
        · next heq => exact absurd heq hsy
        · next heq => exact absurd heq hcs
        · rfl
      obtain ⟨fragments, hfragments⟩ := h.drawPlain_eq_pure hc hsy hcs a
      rw [hreadings, a.mend_nil]
      exact .of_eq_pure ⟨fragments, hfragments, hfragments⟩

/-- A covered call is drawn just when what it reads lies in the range of the doubles. -/
theorem IsReady.draw_isOk_iff (h : call.IsReady c) (hc : c.IsComplete) (a : AttributeSet) :
    IsOk (call.draw a c).outcome ↔ call.IsWithin a c.settings := by
  by_cases hthresholds : ∀ procedure, call.procedure? = .ok (some procedure) →
      procedure.PicksByDepth a → c.settings.InRange
  · rw [(h.draw_mends hc hthresholds).isOk_iff]
    exact ⟨fun hreadings => ⟨hreadings, hthresholds⟩, fun hwithin => hwithin.readings⟩
  · refine iff_of_false (fun hok => ?_) fun hwithin => hthresholds hwithin.thresholds
    -- The renderer is to pick by thresholds that are out of range.
    push Not at hthresholds
    obtain ⟨procedure, hprocedure, hpicks, hrange⟩ := hthresholds
    rw [draw_of_procedure a c hprocedure] at hok
    obtain ⟨calls, hcalls, -⟩ := Report.outcome_bind_eq_ok_iff.1 hok.choose_spec
    exact Procedure.evaluate_fails hc.numeric hpicks hrange ⟨calls, hcalls⟩

/-- Within the range a covered call draws what it draws for the mended attributes, and notes what it
cannot use. -/
theorem IsReady.draw_heeds (h : call.IsReady c) (hc : c.IsComplete) {a : AttributeSet}
    (hwithin : call.IsWithin a c.settings) :
    (call.draw a c).outcome = (call.draw (a.mend (call.readings a)) c).outcome ∧
      (call.draw a c).events = ((call.readings a).filterMap a.finding?).map Event.diagnostic :=
  (h.draw_mends hc hwithin.thresholds).heeds hwithin.readings

end

end Call

end ChartStyle
