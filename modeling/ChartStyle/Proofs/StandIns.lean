import ChartStyle.Bundled.Presentation
import ChartStyle.Proofs.DrawnCalls
import ChartStyle.Proofs.ProcedureDependence
import ChartStyle.Proofs.ProcedureReadings
import ChartStyle.Proofs.RuleGroups

/-!
# Stand-ins for malformed values

A known value that is no finite number counts as the number that stands in for it: as an attribute
that holds that number, but for one diagnostic. This is so where a procedure reads a depth
(`Procedure.depthStandIn?`) and where a symbol is turned by an attribute
(`AttributeSet.malformed_acts_as_standIn`). The value itself stays in the attributes, so what a
procedure asks about it otherwise, that it is known and that the renderer need not read it, has to be
the same for both values.
-/

set_option autoImplicit false

namespace ChartStyle

/-! ## Malformed values -/

namespace Value

/-- A value that says something but no finite number: a text that is none or reads as no number, an
infinity or something undefined, or a collection. -/
def IsMalformed : Value → Prop
  | .text s => s ≠ "" ∧ ∀ x, Text.readDouble? s = some x → x.isFinite = false
  | .real x => x.isFinite = false
  | .list items => items ≠ []
  | .map _ => True
  | _ => False

/-- Malformed values are the known ones that a reading as a number cannot use. -/
theorem isMalformed_iff {v : Value} :
    v.IsMalformed ↔ v.isKnown = true ∧ v.asReal = .unusable := by
  cases v with
  | text s =>
    simp only [IsMalformed, isKnown, isStated, asReal, toDouble, bne_iff_ne]
    cases Text.readDouble? s with
    | none => simp
    | some x => cases hx : x.isFinite <;> simp [hx]
  | real x => cases hx : x.isFinite <;> simp [IsMalformed, isKnown, isStated, asReal, toDouble, hx]
  | list items => cases items <;> simp [IsMalformed, isKnown, isStated, asReal, toDouble]
  | map entries => simp [IsMalformed, isKnown, isStated, asReal, toDouble]
  | null => simp [IsMalformed, isKnown, isStated]
  | perFeature => simp [IsMalformed, isKnown]
  | bool b =>
    have hb : (if b then (1 : Double) else 0).isFinite = true := by cases b <;> decide +kernel
    simp [IsMalformed, asReal, toDouble, hb]
  | int n => cases hn : Double.ofInt? n <;> simp [IsMalformed, asReal, hn]

theorem isKnown_real (x : Double) : (Value.real x).isKnown = true := rfl

end Value

/-! ## Attributes with one value set -/

namespace AttributeSet

/-- The attributes with one value set. -/
def withValue (a : AttributeSet) (code : String) (v : Value) : AttributeSet :=
  { a with entries := setAttribute a.entries code v }

theorem find?_withValue (a : AttributeSet) (code : String) (v : Value) (c : String) :
    (a.withValue code v).find? c = if code = c then some v else a.find? c :=
  lookup_setAttribute a.entries code v c

theorem find?_withValue_self (a : AttributeSet) (code : String) (v : Value) :
    (a.withValue code v).find? code = some v := by
  rw [find?_withValue, if_pos rfl]

theorem find?_withValue_of_ne (a : AttributeSet) {code c : String} (v : Value) (h : code ≠ c) :
    (a.withValue code v).find? c = a.find? c := by
  rw [find?_withValue, if_neg h]

/-- Two sets agree on what is not set in them. -/
theorem withValue_agree (a : AttributeSet) {code c : String} (v w : Value) (h : code ≠ c) :
    (a.withValue code v).find? c = (a.withValue code w).find? c := by
  rw [find?_withValue_of_ne a v h, find?_withValue_of_ne a w h]

variable {a : AttributeSet} {code : String} {v : Value}

theorem known?_withValue (h : v.isKnown = true) : (a.withValue code v).known? code = some v := by
  rw [known?_eq, find?_withValue_self, Option.filter_some, if_pos h]

theorem isKnown_withValue (h : v.isKnown = true) : (a.withValue code v).isKnown code = true := by
  rw [isKnown_eq, known?_withValue h]
  rfl

theorem isPerFeature_withValue (h : v.isKnown = true) :
    (a.withValue code v).isPerFeature code = false := by
  rw [Bool.eq_false_iff]
  intro hperFeature
  have hnone := known?_of_isPerFeature hperFeature
  rw [known?_withValue h] at hnone
  cases hnone

end AttributeSet

/-! ## One diagnostic more -/

/-- Both operations have the same outcome, and where they succeed, the first one notes what the
second one does and one diagnostic besides. -/
structure NotesOneMore {α : Type} (d : Diagnostic) (x y : Report α) : Prop where
  outcome_eq : x.outcome = y.outcome
  events : IsOk y.outcome → ∃ before after,
    x.events = before ++ .diagnostic d :: after ∧ y.events = before ++ after

namespace NotesOneMore

variable {α β : Type} {d : Diagnostic} {x y : Report α}

/-- What follows notes the same after both. -/
theorem bind (h : NotesOneMore d x y) (f : α → Report β) : NotesOneMore d (x >>= f) (y >>= f) := by
  cases hy : y.outcome with
  | error fault =>
    have hx : x.outcome = .error fault := h.outcome_eq.trans hy
    rw [Report.bind_of_error hx, Report.bind_of_error hy]
    exact ⟨rfl, fun hok => absurd hok (IsOk.not_error fault)⟩
  | ok value =>
    have hx : x.outcome = .ok value := h.outcome_eq.trans hy
    obtain ⟨before, after, hxe, hye⟩ := h.events ⟨value, hy⟩
    rw [Report.bind_of_ok hx, Report.bind_of_ok hy]
    refine ⟨rfl, fun _ => ⟨before, after ++ (f value).events, ?_, ?_⟩⟩
    · simp only [hxe, List.append_assoc, List.cons_append]
    · simp only [hye, List.append_assoc]

/-- What comes before notes the same before both. -/
theorem after (z : Report α) {f g : α → Report β} (h : ∀ value, NotesOneMore d (f value) (g value)) :
    NotesOneMore d (z >>= f) (z >>= g) := by
  cases hz : z.outcome with
  | error fault =>
    rw [Report.bind_of_error hz, Report.bind_of_error hz]
    exact ⟨rfl, fun hok => absurd hok (IsOk.not_error fault)⟩
  | ok value =>
    rw [Report.bind_of_ok hz, Report.bind_of_ok hz]
    refine ⟨(h value).outcome_eq, fun hok => ?_⟩
    obtain ⟨before, after, hxe, hye⟩ := (h value).events hok
    refine ⟨z.events ++ before, after, ?_, ?_⟩
    · simp only [hxe, List.append_assoc]
    · simp only [hye, List.append_assoc]

end NotesOneMore

/-! ## Depths -/

namespace Procedure

/-- The attribute that a procedure reads a depth from, with the depth that stands in for a malformed
value. -/
def depthStandIn? : Procedure → Option (String × Double)
  | .depare01 => some ("DRVAL1", -1)
  | .depcnt02 => some ("VALDCO", 0)
  | .soundg02 => some ("DEPTH", 0)
  | .obstrn04 | .wrecks02 => some ("VALSOU", 0)
  | .lights05 => none

section

variable (a : AttributeSet) {m : Value} (hm : m.IsMalformed) (s : Settings) (t : TableSet)

include hm

/-- A depth is read as its stand-in, with the one diagnostic. -/
theorem depth?_notes (code : String) {standIn : Double} (hfinite : standIn.isFinite = true) :
    NotesOneMore ⟨.malformedAttribute code m (.real standIn), some a.objectClass⟩
      (depth? (a.withValue code m) code standIn)
      (depth? (a.withValue code (.real standIn)) code standIn) := by
  obtain ⟨hknown, hunusable⟩ := Value.isMalformed_iff.1 hm
  have hreads := (isReader_depth? code hfinite).reads
  have husable : (Value.real standIn).asReal = .usable standIn := if_pos hfinite
  have hcode : (depthReading code standIn).code = code := rfl
  rw [hreads, hreads, hcode, AttributeSet.known?_withValue hknown,
    AttributeSet.known?_withValue (Value.isKnown_real standIn)]
  simp only [hunusable, husable]
  exact ⟨rfl, fun _ => ⟨[], [], rfl, rfl⟩⟩

theorem sounding_notes :
    NotesOneMore ⟨.malformedAttribute "DEPTH" m (.real 0), some a.objectClass⟩
      (sounding (a.withValue "DEPTH" m) s) (sounding (a.withValue "DEPTH" (.real 0)) s) := by
  unfold sounding
  exact (depth?_notes a hm "DEPTH" isFinite_zero).bind _

theorem contour_notes :
    NotesOneMore ⟨.malformedAttribute "VALDCO" m (.real 0), some a.objectClass⟩
      (contour (a.withValue "VALDCO" m) s) (contour (a.withValue "VALDCO" (.real 0)) s) := by
  have hknown := (Value.isMalformed_iff.1 hm).1
  -- The quality of the position stands under another code, so it is the same.
  have hquality : (a.withValue "VALDCO" m).getInt "QUAPOS" .null =
      (a.withValue "VALDCO" (.real 0)).getInt "QUAPOS" .null :=
    AttributeSet.getInt_congr (a.withValue_agree m (.real 0) (by decide)) rfl .null
  unfold contour
  rw [hquality, AttributeSet.isPerFeature_withValue hknown,
    AttributeSet.isPerFeature_withValue (Value.isKnown_real 0)]
  exact (depth?_notes a hm "VALDCO" isFinite_zero).bind _

theorem depthArea_notes :
    NotesOneMore ⟨.malformedAttribute "DRVAL1" m (.real (-1)), some a.objectClass⟩
      (depthArea (a.withValue "DRVAL1" m) s) (depthArea (a.withValue "DRVAL1" (.real (-1))) s) := by
  have hknown := (Value.isMalformed_iff.1 hm).1
  have hcolour : NotesOneMore ⟨.malformedAttribute "DRVAL1" m (.real (-1)), some a.objectClass⟩
      (areaColour (a.withValue "DRVAL1" m) s) (areaColour (a.withValue "DRVAL1" (.real (-1))) s) := by
    unfold areaColour
    rw [AttributeSet.isPerFeature_withValue hknown,
      AttributeSet.isPerFeature_withValue (Value.isKnown_real (-1))]
    exact (depth?_notes a hm "DRVAL1" isFinite_neg_one).bind _
  exact hcolour.bind _

theorem danger_notes :
    NotesOneMore ⟨.malformedAttribute "VALSOU" m (.real 0), some a.objectClass⟩
      (danger (a.withValue "VALSOU" m) s) (danger (a.withValue "VALSOU" (.real 0)) s) := by
  have hknown := (Value.isMalformed_iff.1 hm).1
  unfold danger
  rw [AttributeSet.isPerFeature_withValue hknown,
    AttributeSet.isPerFeature_withValue (Value.isKnown_real 0)]
  exact (depth?_notes a hm "VALSOU" isFinite_zero).bind _

theorem wreck_notes :
    NotesOneMore ⟨.malformedAttribute "VALSOU" m (.real 0), some a.objectClass⟩
      (wreck (a.withValue "VALSOU" m) s t) (wreck (a.withValue "VALSOU" (.real 0)) s t) := by
  have hsymbol : wreckSymbol (a.withValue "VALSOU" m) =
      wreckSymbol (a.withValue "VALSOU" (.real 0)) := by
    have hcategory : (a.withValue "VALSOU" m).find? "CATWRK" =
        (a.withValue "VALSOU" (.real 0)).find? "CATWRK" :=
      a.withValue_agree m (.real 0) (by decide)
    unfold wreckSymbol
    rw [AttributeSet.isPerFeature_congr hcategory, AttributeSet.getInt_congr hcategory rfl]
  unfold wreck
  rw [hsymbol]
  exact .after _ fun symbol => (danger_notes a hm s).bind _

/-- The symbol of an obstruction asks only whether the depth is known, and it is. -/
theorem obstruction_notes :
    NotesOneMore ⟨.malformedAttribute "VALSOU" m (.real 0), some a.objectClass⟩
      (obstruction (a.withValue "VALSOU" m) s t)
      (obstruction (a.withValue "VALSOU" (.real 0)) s t) := by
  have hknown := (Value.isMalformed_iff.1 hm).1
  have hsymbol : obstructionSymbol (a.withValue "VALSOU" m) =
      obstructionSymbol (a.withValue "VALSOU" (.real 0)) := by
    unfold obstructionSymbol
    rw [AttributeSet.isPerFeature_withValue hknown, AttributeSet.isKnown_withValue hknown,
      AttributeSet.isPerFeature_withValue (Value.isKnown_real 0),
      AttributeSet.isKnown_withValue (Value.isKnown_real 0)]
  unfold obstruction
  rw [hsymbol]
  exact (danger_notes a hm s).bind _

/-- A procedure does with a malformed depth what it does with the stand-in, and notes it. -/
theorem evaluate_notes {p : Procedure} {code : String} {standIn : Double}
    (hp : p.depthStandIn? = some (code, standIn)) :
    NotesOneMore ⟨.malformedAttribute code m (.real standIn), some a.objectClass⟩
      (p.evaluate (a.withValue code m) s t) (p.evaluate (a.withValue code (.real standIn)) s t) := by
  cases p with
  | lights05 => cases hp
  | depare01 =>
    cases hp
    exact depthArea_notes a hm s
  | depcnt02 =>
    cases hp
    exact contour_notes a hm s
  | soundg02 =>
    cases hp
    exact sounding_notes a hm s
  | obstrn04 =>
    cases hp
    exact obstruction_notes a hm s t
  | wrecks02 =>
    cases hp
    exact wreck_notes a hm s t

/-- With numeric thresholds a malformed depth stops no procedure: only another value can, one that
lies beyond the range of the doubles. -/
theorem evaluate_isOk {p : Procedure} {code : String} {standIn : Double}
    (hp : p.depthStandIn? = some (code, standIn)) (hs : s.IsNumeric)
    (hothers : ∀ r ∈ p.readings a, r.code ≠ code → ¬ a.Exceeds r) :
    IsOk (p.evaluate (a.withValue code m) s t).outcome := by
  obtain ⟨hknown, hunusable⟩ := Value.isMalformed_iff.1 hm
  have hreadings : p.readings (a.withValue code m) = p.readings a := by
    cases p with
    | lights05 => cases hp
    | _ => rfl
  have hdepth : ∀ r ∈ p.readings a, r.code = code → r = depthReading code standIn := by
    cases p with
    | lights05 => cases hp
    | _ =>
      cases hp
      simp [readings, depthReading]
  -- A malformed depth is known, so the renderer picks nothing by it and any thresholds will do.
  have hnotPicked : ¬ p.PicksByDepth (a.withValue code m) := by
    cases p with
    | lights05 => cases hp
    | depare01 =>
      cases hp
      simp [PicksByDepth, AttributeSet.isPerFeature_withValue hknown]
    | soundg02 =>
      cases hp
      simp [PicksByDepth, AttributeSet.isKnown_withValue hknown]
    | _ => exact id
  refine exists_calls_of_readings hs (fun hpicks => absurd hpicks hnotPicked) ?_
  rw [hreadings]
  rintro r hr ⟨v, fault, hv, hbeyond⟩
  by_cases hcode : r.code = code
  · obtain rfl := hdepth r hr hcode
    rw [show (depthReading code standIn).code = code from rfl,
      AttributeSet.known?_withValue hknown] at hv
    obtain rfl := Option.some.inj hv
    simp [Reading.verdict, depthReading, hunusable, Verdict.andThen] at hbeyond
  · refine hothers r hr hcode ⟨v, fault, ?_, hbeyond⟩
    rwa [AttributeSet.known?_congr (a.find?_withValue_of_ne m (Ne.symm hcode))] at hv

end

end Procedure

/-! ## Turns -/

section

variable {a : AttributeSet} {code : String} {events : List Event} {x : Option Double}

/-- An attribute that is read as zero gives a turn of zero, whatever the reading notes. -/
theorem Turn.ofArgument_of_getReal (hknown : a.isKnown code = true)
    (hread : a.getReal code (.int 0) = ⟨events, .ok x⟩) (hx : x.getD 0 = 0) :
    Turn.ofArgument (.attribute code) a = ⟨events, .ok (.fixed (.int 0))⟩ := by
  have hwhole : Double.isWhole 0 = true := by decide +kernel
  have htruncate : Double.truncate 0 = 0 := by decide +kernel
  rw [Turn.ofArgument, if_pos hknown, hread, Report.bind_of_ok rfl, hx]
  dsimp only
  rw [if_pos hwhole, htruncate]
  exact congrArg (Report.mk · _) (List.append_nil events)

/-- A registered symbol stands upright when the attribute that turns it is read as zero. -/
theorem Call.draw_of_getReal {symbol : Argument} {icon : Icon} {c : DrawingContext}
    (hicon : iconOf symbol a c = pure (some icon)) (hknown : a.isKnown code = true)
    (hread : a.getReal code (.int 0) = ⟨events, .ok x⟩) (hx : x.getD 0 = 0) :
    Call.draw ⟨.sy, [symbol, .attribute code]⟩ a c =
      ⟨events, .ok [symbolFragment icon (.fixed (.int 0)) (.attribute code)]⟩ := by
  have hplain : Primitive.sy ≠ .cs := by decide
  have hsymbol : Call.arg ⟨.sy, [symbol, .attribute code]⟩ 0 .null = symbol := rfl
  have hturn : Call.arg ⟨.sy, [symbol, .attribute code]⟩ 1 (.int 0) = .attribute code := rfl
  rw [draw_of_plain a c hplain]
  show drawSymbol ⟨.sy, [symbol, .attribute code]⟩ a c = _
  rw [drawSymbol_eq, hsymbol, hturn, hicon, pure_bind]
  dsimp only
  rw [Turn.ofArgument_of_getReal hknown hread hx, Report.bind_of_ok rfl]
  exact congrArg (Report.mk · _) (List.append_nil events)

end

/-- The icon of a registered name. -/
theorem iconOf_of_find? {symbol : Argument} (hfixed : ∀ choice, symbol ≠ .choice choice)
    {c : DrawingContext} {entry : SymbolEntry}
    (hentry : c.registry.find? symbol.token = some entry) (a : AttributeSet) :
    iconOf symbol a c =
      pure (some ⟨.text symbol.token, .value (SymbolEntry.pointValue entry.offset)⟩) := by
  have hname : iconOf symbol a c = fixedIcon symbol.token a c := by
    cases symbol with
    | choice choice => exact absurd rfl (hfixed choice)
    | _ => rfl
  simp only [hname, fixedIcon, hentry]

/-- A symbol that is turned by a malformed value is drawn as one that is turned by zero. -/
theorem Call.draw_turned_notes (a : AttributeSet) {m : Value} (hm : m.IsMalformed)
    {symbol : Argument} (hfixed : ∀ choice, symbol ≠ .choice choice) (code : String)
    {c : DrawingContext} (hregistered : (c.registry.find? symbol.token).isSome = true) :
    ∃ fragment,
      Call.draw ⟨.sy, [symbol, .attribute code]⟩ (a.withValue code m) c =
        ⟨[.diagnostic ⟨.malformedAttribute code m (.int 0), some a.objectClass⟩],
          .ok [fragment]⟩ ∧
      Call.draw ⟨.sy, [symbol, .attribute code]⟩ (a.withValue code (.int 0)) c =
        ⟨[], .ok [fragment]⟩ := by
  obtain ⟨hknown, hunusable⟩ := Value.isMalformed_iff.1 hm
  obtain ⟨entry, hentry⟩ := Option.isSome_iff_exists.1 hregistered
  have hzero : (Value.int 0).isKnown = true := rfl
  have hicon := iconOf_of_find? hfixed hentry
  refine ⟨_, draw_of_getReal (hicon _) (x := none) (AttributeSet.isKnown_withValue hknown) ?_ rfl,
    draw_of_getReal (hicon _) (x := some 0) (AttributeSet.isKnown_withValue hzero) ?_ rfl⟩
  · rw [AttributeSet.getReal_eq, AttributeSet.known?_withValue hknown]
    simp only [hunusable]
    rfl
  · have husable : (Value.int 0).asReal = .usable 0 := by
      have hofInt : Double.ofInt? 0 = some 0 := by decide +kernel
      simp only [Value.asReal, hofInt]
    rw [AttributeSet.getReal_eq, AttributeSet.known?_withValue hzero]
    simp only [husable]
    rfl

/-! ## All readings with a stand-in -/

/-- A malformed value acts as the number that stands in for it. A procedure that reads it as a depth
gives the same calls, and it gives them unless another value lies beyond the range of the doubles; a
symbol that is turned by it is drawn, and is drawn the same. In each case there is one diagnostic more,
with the code of the attribute and the object class of the feature. -/
theorem AttributeSet.malformed_acts_as_standIn (a : AttributeSet) {m : Value} (hm : m.IsMalformed) :
    (∀ (p : Procedure) (code : String) (standIn : Double),
      p.depthStandIn? = some (code, standIn) → ∀ (s : Settings) (t : TableSet),
        NotesOneMore ⟨.malformedAttribute code m (.real standIn), some a.objectClass⟩
          (p.evaluate (a.withValue code m) s t)
          (p.evaluate (a.withValue code (.real standIn)) s t) ∧
        (s.IsNumeric → (∀ r ∈ p.readings a, r.code ≠ code → ¬ a.Exceeds r) →
          IsOk (p.evaluate (a.withValue code m) s t).outcome)) ∧
    ∀ (symbol : Argument) (code : String) (c : DrawingContext),
      (∀ choice, symbol ≠ .choice choice) → (c.registry.find? symbol.token).isSome = true →
        ∃ fragment,
          Call.draw ⟨.sy, [symbol, .attribute code]⟩ (a.withValue code m) c =
            ⟨[.diagnostic ⟨.malformedAttribute code m (.int 0), some a.objectClass⟩],
              .ok [fragment]⟩ ∧
          Call.draw ⟨.sy, [symbol, .attribute code]⟩ (a.withValue code (.int 0)) c =
            ⟨[], .ok [fragment]⟩ := by
  constructor
  · intro p code standIn hp s t
    exact ⟨Procedure.evaluate_notes a hm s t hp, Procedure.evaluate_isOk a hm s t hp⟩
  · intro symbol code c hfixed hregistered
    exact Call.draw_turned_notes a hm hfixed code hregistered

/-- A depth that is a word. -/
theorem Value.isMalformed_mud : (Value.text "mud").IsMalformed := by
  rw [isMalformed_iff]
  have hreading : Text.readDouble? "mud" = none := by decide +kernel
  simp only [asReal, toDouble, hreading]
  decide

/-- A sounding whose depth is a word is drawn as a sounding of zero, and a beacon that is turned by
the word stands upright. -/
theorem AttributeSet.malformed_acts_as_standIn_mud :
    (Value.text "mud").IsMalformed ∧
      NotesOneMore ⟨.malformedAttribute "DEPTH" (.text "mud") (.real 0), some "SOUNDG"⟩
        (Procedure.soundg02.evaluate ⟨"SOUNDG", [("DEPTH", .text "mud")]⟩ {} .points)
        (Procedure.soundg02.evaluate ⟨"SOUNDG", [("DEPTH", .real 0)]⟩ {} .points) ∧
      IsOk (Procedure.soundg02.evaluate ⟨"SOUNDG", [("DEPTH", .text "mud")]⟩ {} .points).outcome ∧
      ∃ fragment,
        (Call.draw ⟨.sy, [.text "BCNLAT15", .attribute "ORIENT"]⟩
          ⟨"BCNLAT", [("ORIENT", .text "mud")]⟩
          ⟨{}, Bundled.palette, Bundled.registry, .points⟩).outcome = .ok [fragment] := by
  have hm := Value.isMalformed_mud
  have hsounding := (malformed_acts_as_standIn ⟨"SOUNDG", []⟩ hm).1 .soundg02 "DEPTH" 0 rfl {} .points
  have hnumeric : Settings.IsNumeric {} := ⟨⟨_, rfl⟩, ⟨_, rfl⟩, ⟨_, rfl⟩⟩
  have hothers : ∀ r ∈ Procedure.soundg02.readings ⟨"SOUNDG", []⟩, r.code ≠ "DEPTH" →
      ¬ AttributeSet.Exceeds ⟨"SOUNDG", []⟩ r := by
    intro r hr hcode
    exact absurd (congrArg Reading.code (List.mem_singleton.1 hr)) hcode
  have hregistered : (Bundled.registry.find? "BCNLAT15").isSome = true := by decide +kernel
  obtain ⟨fragment, hfragment, -⟩ := (malformed_acts_as_standIn ⟨"BCNLAT", []⟩ hm).2
    (.text "BCNLAT15") "ORIENT" ⟨{}, Bundled.palette, Bundled.registry, .points⟩
    (fun choice => by rintro ⟨⟩) hregistered
  exact ⟨hm, hsounding.1, hsounding.2 hnumeric hothers, fragment, congrArg Report.outcome hfragment⟩

end ChartStyle
