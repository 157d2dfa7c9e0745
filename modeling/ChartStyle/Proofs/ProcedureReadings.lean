import ChartStyle.Proofs.Mending
import ChartStyle.Proofs.ProcedureCalls

/-!
# What procedures read

The readings of each procedure (`Procedure.readings`), and that these are all: with numeric
thresholds a procedure does its readings and then gives the calls that it gives for the mended
attributes (`Procedure.evaluate_mends`). One thing more can fail: where the renderer picks a colour
by depth, the thresholds must lie in the range of the doubles (`Procedure.evaluate_fails`).
-/

set_option autoImplicit false

namespace ChartStyle

/-! ## Thresholds -/

namespace Settings

/-- The thresholds are numbers. -/
structure IsNumeric (s : Settings) : Prop where
  shallow : ∃ n, numeric? s.shallowDepth = some n
  safety : ∃ n, numeric? s.safetyDepth = some n
  deep : ∃ n, numeric? s.deepDepth = some n

/-- The thresholds lie in the range of the doubles. -/
def InRange (s : Settings) : Prop := ∀ entry ∈ s.thresholds, ∃ x, entry.2.toDouble = .ok x

theorem exists_of_checkThreshold {name : String} {v : Value} {n : Number}
    (h : checkThreshold name v = .ok n) : ∃ n, numeric? v = some n := by
  unfold checkThreshold at h
  cases hv : numeric? v with
  | some n => exact ⟨n, rfl⟩
  | none =>
    rw [hv] at h
    cases h

/-- Settings that pass the checks have numeric thresholds. -/
theorem isNumeric_of_validate {s : Settings} (h : s.validate.outcome = .ok ()) : s.IsNumeric := by
  obtain ⟨shallow, hshallow, h⟩ := Report.outcome_bind_eq_ok_iff.1 h
  obtain ⟨safety, hsafety, h⟩ := Report.outcome_bind_eq_ok_iff.1 h
  obtain ⟨deep, hdeep, -⟩ := Report.outcome_bind_eq_ok_iff.1 h
  exact ⟨exists_of_checkThreshold hshallow, exists_of_checkThreshold hsafety,
    exists_of_checkThreshold hdeep⟩

end Settings

theorem comparable_of_numeric? {v : Value} {n : Number} (h : Settings.numeric? v = some n) :
    v.comparable = .ok n := by
  cases v with
  | int | real =>
    cases h
    rfl
  | null | bool b | text s | list items | map entries | perFeature => cases h

variable {s : Settings}

theorem exists_shallowerThan {v : Value} (h : ∃ n, Settings.numeric? v = some n) (depth : Number) :
    ∃ verdict, shallowerThan depth v = .ok verdict := by
  obtain ⟨n, hn⟩ := h
  refine ⟨depth.less n, ?_⟩
  rw [shallowerThan, comparable_of_numeric? hn]
  rfl

theorem exists_depthBand (hs : s.IsNumeric) (depth : Number) :
    ∃ band, depthBand depth s = .ok band := by
  obtain ⟨shallow, hshallow⟩ := exists_shallowerThan hs.shallow depth
  obtain ⟨safety, hsafety⟩ := exists_shallowerThan hs.safety depth
  obtain ⟨deep, hdeep⟩ := exists_shallowerThan hs.deep depth
  unfold depthBand
  rw [hshallow, hsafety, hdeep]
  cases depth.less (.whole 0) with
  | true => exact ⟨_, rfl⟩
  | false => cases shallow <;> cases safety <;> cases deep <;> exact ⟨_, rfl⟩

/-- There is a choice by depth just when the thresholds lie in the range of the doubles. -/
theorem depthChoice_isOk_iff (hs : s.IsNumeric) (code : String) (fallback : Value)
    (colours : DepthBand → String) :
    (∃ c, depthChoice code fallback s colours = .ok c) ↔ s.InRange := by
  have hbreaks : (∃ breaks, depthBreaks s = .ok breaks) ↔ s.InRange := by
    simp only [Settings.InRange, Settings.thresholds, List.forall_mem_cons, List.not_mem_nil,
      false_implies, implies_true, and_true]
    constructor
    · rintro ⟨breaks, h⟩
      obtain ⟨shallow, hshallow, h⟩ := except_bind_eq_ok_iff.1 h
      obtain ⟨safety, hsafety, h⟩ := except_bind_eq_ok_iff.1 h
      obtain ⟨deep, hdeep, -⟩ := except_bind_eq_ok_iff.1 h
      exact ⟨⟨shallow, hshallow⟩, ⟨safety, hsafety⟩, ⟨deep, hdeep⟩⟩
    · rintro ⟨⟨shallow, hshallow⟩, ⟨safety, hsafety⟩, ⟨deep, hdeep⟩⟩
      unfold depthBreaks
      rw [hshallow, hsafety, hdeep]
      exact ⟨_, rfl⟩
  have hcolour (x : Double) :
      ∃ token, (do return colours (← depthBand (.real x) s) : Except Fault String) = .ok token := by
    obtain ⟨band, hband⟩ := exists_depthBand hs (.real x)
    rw [hband]
    exact ⟨_, rfl⟩
  have hstops (previous : String) (breaks : List Double) :
      ∃ stops, colourStops (fun x => do return colours (← depthBand (.real x) s)) previous breaks =
        .ok stops := by
    induction breaks generalizing previous with
    | nil => exact ⟨[], rfl⟩
    | cons x breaks ih =>
      obtain ⟨token, htoken⟩ := hcolour x
      obtain ⟨stops, hstops⟩ := ih token
      exact ⟨_, except_bind_eq_ok_iff.2
        ⟨token, htoken, except_bind_eq_ok_iff.2 ⟨stops, hstops, rfl⟩⟩⟩
  rw [← hbreaks]
  constructor
  · rintro ⟨c, h⟩
    obtain ⟨breaks, hbreaks, -⟩ := except_bind_eq_ok_iff.1 h
    exact ⟨breaks, hbreaks⟩
  · rintro ⟨breaks, hbreaks⟩
    obtain ⟨default, hdefault⟩ := hcolour ((breaks.headD 0).sub 1)
    obtain ⟨stops, hstops⟩ := hstops default breaks
    exact ⟨_, except_bind_eq_ok_iff.2 ⟨breaks, hbreaks, except_bind_eq_ok_iff.2
      ⟨default, hdefault, except_bind_eq_ok_iff.2 ⟨stops, hstops, rfl⟩⟩⟩⟩

/-! ## Readings -/

namespace Procedure

/-- The reading of a depth. -/
def depthReading (code : String) (standIn : Double) : Reading :=
  ⟨code, .real (some (.real standIn))⟩

/-- The readings of a description. -/
def descriptionReadings : List Reading :=
  [⟨"LITCHR", .whole⟩, ⟨"COLOUR", .items⟩, ⟨"SIGPER", .real none⟩, ⟨"HEIGHT", .real none⟩,
    ⟨"VALNMR", .real none⟩]

/-- The readings of a procedure for a feature, in its order. A light is described unless some part
of the description is known to the renderer only. -/
def readings (p : Procedure) (a : AttributeSet) : List Reading :=
  match p with
  | .depare01 => [depthReading "DRVAL1" (-1)]
  | .depcnt02 => [depthReading "VALDCO" 0, ⟨"QUAPOS", .whole⟩]
  | .lights05 =>
    [⟨"COLOUR", .items⟩, ⟨"SECTR1", .real none⟩, ⟨"SECTR2", .real none⟩] ++
      if descriptionCodes.any a.isPerFeature then [] else descriptionReadings
  | .obstrn04 => [depthReading "VALSOU" 0]
  | .soundg02 => [depthReading "DEPTH" 0]
  | .wrecks02 => [⟨"CATWRK", .whole⟩, depthReading "VALSOU" 0]

/-- The renderer picks the colour of the feature by its depth. -/
def PicksByDepth (p : Procedure) (a : AttributeSet) : Prop :=
  match p with
  | .depare01 => a.isPerFeature "DRVAL1" = true
  | .soundg02 => a.isKnown "DEPTH" = false
  | _ => False

theorem isReader_depth? (code : String) {standIn : Double} (hfinite : standIn.isFinite = true) :
    IsReader (depth? · code standIn) (depthReading code standIn) Value.asReal
      (fun x => some (x.getD standIn)) none := by
  refine ⟨fun a => ?_, fun _ => rfl, ⟨standIn, ?_, rfl⟩⟩
  · unfold depth?
    have hcode : (depthReading code standIn).code = code := rfl
    rw [AttributeSet.isKnown_eq, AttributeSet.getReal_eq, hcode]
    cases a.known? code with
    | none => rfl
    | some v => rfl
  · show (if standIn.isFinite then Verdict.usable standIn else .unusable) = .usable standIn
    rw [hfinite]
    rfl

/-! ## Procedures and their readings -/

variable {a : AttributeSet} {t : TableSet} {rs : List Reading}

theorem isFinite_zero : Double.isFinite 0 = true := by decide +kernel

theorem isFinite_neg_one : Double.isFinite (-1) = true := by decide +kernel

theorem mends_depth? {code : String} {standIn : Double} (hfinite : standIn.isFinite = true)
    (hfind : rs.find? (·.code == code) = some (depthReading code standIn)) :
    Mends a [depthReading code standIn] (depth? a code standIn)
      (depth? (a.mend rs) code standIn) :=
  (isReader_depth? code hfinite).mends hfind a

theorem lift_bind_of_ok {α β : Type} {x : Except Fault α} {value : α} (h : x = .ok value)
    (f : α → Report β) : (liftM x : Report α) >>= f = f value := by
  rw [h]
  rfl

/-- A choice by depth is made of numeric thresholds in range, wherever one is needed. -/
theorem exists_depthChoice (hs : s.IsNumeric) (hrange : s.InRange) (code : String)
    (fallback : Value) (colours : DepthBand → String) :
    ∃ c, depthChoice code fallback s colours = .ok c :=
  (depthChoice_isOk_iff hs code fallback colours).2 hrange

theorem sounding_mends (hs : s.IsNumeric) (hrange : PicksByDepth .soundg02 a → s.InRange) :
    Mends a (readings .soundg02 a) (sounding a s) (sounding (a.mend (readings .soundg02 a)) s) := by
  refine (mends_depth? isFinite_zero rfl).bind_pure fun depth hdepth _ => ?_
  cases depth with
  | some depth =>
    obtain ⟨band, hband⟩ := exists_depthBand hs (.real depth)
    exact ⟨_, lift_bind_of_ok hband _, lift_bind_of_ok hband _⟩
  | none =>
    -- Without a depth the renderer picks the colour, and the thresholds are in range.
    have hpicks : PicksByDepth .soundg02 a := by
      show a.isKnown "DEPTH" = false
      rw [AttributeSet.isKnown_eq, depth?_gives none hdepth rfl]
      rfl
    obtain ⟨colour, hcolour⟩ := exists_depthChoice hs (hrange hpicks) "DEPTH" (.real 0)
      DepthBand.soundingColour
    exact ⟨_, lift_bind_of_ok hcolour _, lift_bind_of_ok hcolour _⟩

theorem contour_mends :
    Mends a (readings .depcnt02 a) (contour a s) (contour (a.mend (readings .depcnt02 a)) s) := by
  refine (mends_depth? isFinite_zero rfl).bind fun depth _ _ => ?_
  refine ((isReader_getInt "QUAPOS").mends rfl a).bind_pure fun quality _ _ => ?_
  rw [AttributeSet.isPerFeature_mend]
  dsimp only
  cases a.isPerFeature "VALDCO" with
  | true => exact ⟨_, rfl, rfl⟩
  | false =>
    cases depth with
    | none => exact ⟨_, rfl, rfl⟩
    | some depth =>
      dsimp only
      cases isDepth s.safetyDepth depth <;> exact ⟨_, rfl, rfl⟩

/-- Where the renderer knows the value only, nothing is read. -/
theorem mends_of_isPerFeature {α : Type} {r : Reading} (h : a.isPerFeature r.code = true)
    {x mended : Report α} (hx : ∃ value, x = pure value ∧ mended = pure value) :
    Mends a [r] x mended :=
  .of_unknown (List.forall_mem_singleton.2 (AttributeSet.known?_of_isPerFeature h)) hx

theorem depthArea_mends (hs : s.IsNumeric) (hrange : PicksByDepth .depare01 a → s.InRange) :
    Mends a (readings .depare01 a) (depthArea a s)
      (depthArea (a.mend (readings .depare01 a)) s) := by
  have hcolour : Mends a (readings .depare01 a) (areaColour a s)
      (areaColour (a.mend (readings .depare01 a)) s) := by
    unfold areaColour
    rw [AttributeSet.isPerFeature_mend]
    cases h : a.isPerFeature "DRVAL1" with
    | true =>
      obtain ⟨colour, hcolour⟩ := exists_depthChoice hs (hrange h) "DRVAL1" (.real (-1))
        DepthBand.areaColour
      exact mends_of_isPerFeature h ⟨_, lift_bind_of_ok hcolour _, lift_bind_of_ok hcolour _⟩
    | false =>
      refine (mends_depth? isFinite_neg_one rfl).bind_pure fun depth _ _ => ?_
      obtain ⟨band, hband⟩ := exists_depthBand hs (.real (depth.getD (-1)))
      exact ⟨_, lift_bind_of_ok hband _, lift_bind_of_ok hband _⟩
  refine hcolour.bind_pure fun colour _ _ => ?_
  show ∃ result, (if a.objectClass = "DRGARE" then _ else _) = _ ∧
    (if a.objectClass = "DRGARE" then _ else _) = _
  split <;> exact ⟨_, rfl, rfl⟩

/-! ## Dangers -/

theorem danger_mends (hs : s.IsNumeric)
    (hfind : rs.find? (·.code == "VALSOU") = some (depthReading "VALSOU" 0)) :
    Mends a [depthReading "VALSOU" 0] (danger a s) (danger (a.mend rs) s) := by
  unfold danger
  rw [AttributeSet.isPerFeature_mend]
  cases h : a.isPerFeature "VALSOU" with
  | true => exact mends_of_isPerFeature h ⟨_, rfl, rfl⟩
  | false =>
    refine (mends_depth? isFinite_zero hfind).bind_pure fun depth _ _ => ?_
    cases depth with
    | none => exact ⟨_, rfl, rfl⟩
    | some depth =>
      obtain ⟨verdict, hverdict⟩ := exists_shallowerThan hs.safety (.real depth)
      exact ⟨_, lift_bind_of_ok hverdict _, lift_bind_of_ok hverdict _⟩

theorem obstruction_mends (hs : s.IsNumeric) :
    Mends a (readings .obstrn04 a) (obstruction a s t)
      (obstruction (a.mend (readings .obstrn04 a)) s t) := by
  have hsymbol : obstructionSymbol (a.mend (readings .obstrn04 a)) = obstructionSymbol a := by
    have hknown : ((a.mend (readings .obstrn04 a)).known? "VALSOU").isSome =
        (a.known? "VALSOU").isSome :=
      AttributeSet.isSome_known?_mend (r := depthReading "VALSOU" 0) rfl rfl a
    unfold obstructionSymbol
    rw [AttributeSet.isPerFeature_mend, AttributeSet.isKnown_eq, AttributeSet.isKnown_eq, hknown]
  refine (danger_mends hs rfl).bind_pure fun d _ _ => ?_
  rw [hsymbol]
  exact ⟨_, rfl, rfl⟩

theorem wreck_mends (hs : s.IsNumeric) :
    Mends a (readings .wrecks02 a) (wreck a s t) (wreck (a.mend (readings .wrecks02 a)) s t) := by
  have hsymbol : Mends a [⟨"CATWRK", .whole⟩] (wreckSymbol a)
      (wreckSymbol (a.mend (readings .wrecks02 a))) := by
    unfold wreckSymbol
    rw [AttributeSet.isPerFeature_mend]
    cases h : a.isPerFeature "CATWRK" with
    | true => exact mends_of_isPerFeature h ⟨_, rfl, rfl⟩
    | false =>
      refine ((isReader_getInt "CATWRK").mends rfl a).bind_pure fun category _ _ => ?_
      exact ⟨_, rfl, rfl⟩
  refine hsymbol.bind fun symbol _ _ => ?_
  exact (danger_mends hs rfl).bind_pure fun d _ _ => ⟨_, rfl, rfl⟩

/-! ## Lights -/

theorem lightDescription_mends
    (hfind : ∀ r ∈ descriptionReadings, rs.find? (·.code == r.code) = some r)
    (hgroup : rs.find? (·.code == "SIGGRP") = none) :
    Mends a descriptionReadings (lightDescription a) (lightDescription (a.mend rs)) := by
  have hreal {code : String} (h : ⟨code, .real none⟩ ∈ descriptionReadings) :=
    (isReader_getReal code).mends (hfind _ h) a
  have htext : (a.mend rs).getText "SIGGRP" = a.getText "SIGGRP" := by
    unfold AttributeSet.getText
    rw [AttributeSet.known?_mend_of_unread hgroup]
  unfold lightDescription
  rw [htext]
  refine ((isReader_getInt "LITCHR").mends (hfind _ (by decide)) a).bind fun character _ _ => ?_
  refine ((isReader_getInts "COLOUR").mends (hfind _ (by decide)) a).bind fun colours _ _ => ?_
  refine (hreal (by decide)).bind fun period _ _ => (hreal (by decide)).bind fun height _ _ => ?_
  exact (hreal (by decide)).bind_pure fun range _ _ => ⟨_, rfl, rfl⟩

theorem light_mends :
    Mends a (readings .lights05 a) (light a) (light (a.mend (readings .lights05 a))) := by
  have hsymbol : Mends a [⟨"COLOUR", .items⟩] (flareArgument a)
      (flareArgument (a.mend (readings .lights05 a))) := by
    unfold flareArgument
    rw [AttributeSet.isPerFeature_mend]
    cases h : a.isPerFeature "COLOUR" with
    | true => exact mends_of_isPerFeature h ⟨_, rfl, rfl⟩
    | false =>
      refine ((isReader_getInts "COLOUR").mends rfl a).bind_pure fun colours _ _ => ?_
      exact ⟨_, rfl, rfl⟩
  have hturn : Mends a [⟨"SECTR1", .real none⟩, ⟨"SECTR2", .real none⟩] (flareTurn a)
      (flareTurn (a.mend (readings .lights05 a))) := by
    refine ((isReader_getReal "SECTR1").mends rfl a).bind fun first _ _ => ?_
    refine ((isReader_getReal "SECTR2").mends rfl a).bind_pure fun second _ _ => ?_
    cases first <;> cases second <;> exact ⟨_, rfl, rfl⟩
  refine hsymbol.bind fun symbol _ _ => hturn.bind fun turn _ _ => ?_
  have hdescription : Mends a
      (if descriptionCodes.any a.isPerFeature then [] else descriptionReadings)
      (descriptionArgument? a) (descriptionArgument? (a.mend (readings .lights05 a))) := by
    have hperFeature : (a.mend (readings .lights05 a)).isPerFeature = a.isPerFeature :=
      funext fun code => a.isPerFeature_mend _ code
    unfold descriptionArgument?
    rw [hperFeature]
    cases h : descriptionCodes.any a.isPerFeature with
    | true => exact .of_eq_pure ⟨_, rfl, rfl⟩
    | false =>
      have hreadings : readings .lights05 a =
          [⟨"COLOUR", .items⟩, ⟨"SECTR1", .real none⟩, ⟨"SECTR2", .real none⟩] ++
            descriptionReadings := by
        simp only [readings, h]
        rfl
      rw [hreadings]
      refine (lightDescription_mends (by decide) rfl).bind_pure fun description _ _ => ?_
      exact ⟨_, rfl, rfl⟩
  refine hdescription.bind_pure fun description _ _ => ?_
  cases description <;> exact ⟨_, rfl, rfl⟩

/-! ## All procedures -/

/-- A procedure does its readings, and then it gives the calls that it gives for the mended
attributes, unless it is to pick by depths that are out of range. -/
theorem evaluate_mends (p : Procedure) (hs : s.IsNumeric) (hrange : p.PicksByDepth a → s.InRange) :
    Mends a (p.readings a) (p.evaluate a s t) (p.evaluate (a.mend (p.readings a)) s t) := by
  cases p with
  | depare01 => exact depthArea_mends hs hrange
  | depcnt02 => exact contour_mends
  | lights05 => exact light_mends
  | obstrn04 => exact obstruction_mends hs
  | soundg02 => exact sounding_mends hs hrange
  | wrecks02 => exact wreck_mends hs

/-- Where the renderer is to pick by depths that are out of range, a procedure fails. -/
theorem evaluate_fails {p : Procedure} (hs : s.IsNumeric) (hpicks : p.PicksByDepth a)
    (hrange : ¬ s.InRange) : ¬ ∃ calls, (p.evaluate a s t).outcome = .ok calls := by
  rintro ⟨calls, h⟩
  cases p with
  | depare01 =>
    have hperFeature : a.isPerFeature "DRVAL1" = true := hpicks
    obtain ⟨colour, hcolour, -⟩ := Report.outcome_bind_eq_ok_iff.1 h
    rw [areaColour, if_pos hperFeature] at hcolour
    obtain ⟨c, hc, -⟩ := Report.outcome_bind_eq_ok_iff.1 hcolour
    exact hrange ((depthChoice_isOk_iff hs _ _ _).1 ⟨c, hc⟩)
  | soundg02 =>
    have hunknown : ¬ a.isKnown "DEPTH" = true := by
      rw [show a.isKnown "DEPTH" = false from hpicks]
      exact Bool.false_ne_true
    obtain ⟨depth, hdepth, h⟩ := Report.outcome_bind_eq_ok_iff.1 h
    rw [depth?, if_neg hunknown] at hdepth
    cases hdepth
    obtain ⟨c, hc, -⟩ := Report.outcome_bind_eq_ok_iff.1 h
    exact hrange ((depthChoice_isOk_iff hs _ _ _).1 ⟨c, hc⟩)
  | depcnt02 | lights05 | obstrn04 | wrecks02 => exact hpicks

/-- A procedure whose readings stay in range gives calls. -/
theorem exists_calls_of_readings {p : Procedure} (hs : s.IsNumeric)
    (hrange : p.PicksByDepth a → s.InRange) (hread : ∀ r ∈ p.readings a, ¬ a.Exceeds r) :
    ∃ calls, (p.evaluate a s t).outcome = .ok calls := by
  have hmends := p.evaluate_mends (t := t) hs hrange
  have hread' := AttributeSet.readAll_outcome_eq_ok_iff.2 hread
  obtain ⟨calls, hcalls⟩ := hmends.settled hread'
  exact ⟨calls, hmends.outcome_eq_ok hcalls hread'⟩

end Procedure

end ChartStyle
