import ChartStyle.Proofs.Dangers
import ChartStyle.Proofs.DrawnCalls
import ChartStyle.Proofs.ProcedureDependence

/-!
# Contours in the renderer

A contour is drawn by its depth, which may be left to the renderer. A depth that is missing counts
as zero there, while a contour without a depth is never the safety contour when its depth is known
to be missing. So the renderer draws for a feature of a tile what is drawn for the known depth of
that feature, unless it has none and the safety depth is zero (`contour_settles_iff`): then it draws
the safety contour (`contour_settles_undepthed`).
-/

set_option autoImplicit false

namespace ChartStyle

/-! ## Reading -/

/-- What a reading notes names the object class; what it gives does not depend on it. -/
theorem AttributeSet.getInt_outcome_congr {a b : AttributeSet} {code : String}
    (h : a.find? code = b.find? code) :
    (a.getInt code .null).outcome = (b.getInt code .null).outcome := by
  rw [getInt_eq, getInt_eq, known?_congr h]
  cases b.known? code with
  | none => rfl
  | some v => cases h : v.asWhole <;> simp only [h] <;> rfl

namespace Procedure

variable {r : Renderer} {f : TileFeature} {a known : AttributeSet} {s : Settings} {safety : Number}
  {depth : Option Double}

/-! ## The verdict -/

/-- The depth is the safety depth. -/
def isSafetyDepth (safety : Number) (depth : Double) : Bool := (Number.real depth).same safety

theorem isDepth_safetyDepth (hs : Settings.numeric? s.safetyDepth = some safety) (x : Double) :
    isDepth s.safetyDepth x = isSafetyDepth safety x := by
  rw [Settings.eq_toValue_of_numeric? hs]
  cases safety <;> rfl

/-- The renderer's condition: the depth, or zero where there is none, is the safety depth. -/
theorem eval_safetyCondition (hs : Settings.numeric? s.safetyDepth = some safety)
    (hf : IsNumber (f.find? "VALDCO") depth) :
    r.eval f (.equal (numericAttribute "VALDCO" (.real 0)) (.value s.safetyDepth)) =
      some (.bool (isSafetyDepth safety (depth.getD 0))) := by
  have hdepth : ((f.find? "VALDCO").getD (.real 0)).finite? = some (depth.getD 0) := by
    generalize f.find? "VALDCO" = v at hf
    cases hf with
    | absent => decide +kernel
    | finite hx => exact hx
  have hequals (x : Double) : (Value.real x).equals s.safetyDepth = isSafetyDepth safety x := by
    rw [Settings.eq_toValue_of_numeric? hs]
    cases safety <;> rfl
  rw [Renderer.eval, r.eval_numericAttribute hdepth, Renderer.eval]
  show some (Value.bool ((Value.real (depth.getD 0)).equals s.safetyDepth)) = _
  rw [hequals]

/-! ## The calls -/

/-- The style of a contour by the quality of its position. -/
def contourStyle (quality : Option Int) : String := if isApproximate quality then "DASH" else "SOLD"

/-- A contour, wide and in its own colour when it is the safety contour. -/
def contourCall (style : String) (isSafety : Bool) : Call :=
  lineCall style (.int (if isSafety then 2 else 1)) (.text (if isSafety then "DEPSC" else "DEPCN"))

/-- A contour whose width and colour are left to the renderer. -/
def deferredContourCall (style : String) (isSafety : Expr) : Call :=
  lineCall style (.choice (branch isSafety (.int 2) (.int 1)))
    (.choice (branch isSafety (.text "DEPSC") (.text "DEPCN")))

theorem pick_branch {condition : Expr} {verdict : Bool}
    (h : r.eval f condition = some (.bool verdict)) (option default : Value) :
    r.pick f (branch condition option default) = some (if verdict then option else default) := by
  rw [Renderer.pick_of_case rfl]
  show r.evalCases f (some default) [(condition, .value option)] = _
  rw [Renderer.evalCases_cons h, Renderer.evalCases]
  cases verdict <;> rfl

theorem settle_deferredContourCall {condition : Expr} {verdict : Bool}
    (h : r.eval f condition = some (.bool verdict)) (style : String) :
    r.settle f [deferredContourCall style condition] = some [contourCall style verdict] := by
  have hargs : r.settleArguments f (deferredContourCall style condition).args =
      some (contourCall style verdict).args := by
    show (r.settleArguments f [.text style, .choice _, .choice _]) = _
    simp only [Renderer.settleArguments, Renderer.settleArgument, pick_branch h]
    cases verdict <;> rfl
  rw [Renderer.settle_cons hargs (rfl : r.settle f [] = some [])]
  rfl

/-- A contour whose depth is known, or known to be absent. -/
theorem contour_of_number (hs : Settings.numeric? s.safetyDepth = some safety)
    (h : IsNumber (known.find? "VALDCO") depth) :
    contour known s = known.getInt "QUAPOS" .null >>= fun quality =>
      pure [contourCall (contourStyle quality) (depth.any (isSafetyDepth safety))] := by
  rw [contour]
  generalize hfind : known.find? "VALDCO" = v at h
  cases h with
  | absent =>
    obtain ⟨hknown, hper⟩ := AttributeSet.isKnown_of_absent hfind
    rw [depth?_of_unknown hknown, hper, pure_bind]
    rfl
  | @finite v x hx =>
    rw [depth?_of_finite hfind hx, (AttributeSet.isKnown_of_finite hfind hx).2, pure_bind]
    refine congrArg (known.getInt "QUAPOS" .null >>= ·) (funext fun quality => ?_)
    show (if isDepth s.safetyDepth x = true then _ else _) = _
    rw [isDepth_safetyDepth hs, Option.any_some]
    cases isSafetyDepth safety x <;> rfl

/-- A contour whose depth is left to the renderer. -/
theorem contour_of_perFeature (h : a.find? "VALDCO" = some .perFeature) :
    contour a s = a.getInt "QUAPOS" .null >>= fun quality =>
      pure [deferredContourCall (contourStyle quality)
        (.equal (numericAttribute "VALDCO" (.real 0)) (.value s.safetyDepth))] := by
  obtain ⟨hknown, hper⟩ := AttributeSet.isPerFeature_of_perFeature h
  rw [contour, depth?_of_unknown hknown, hper, pure_bind]
  rfl

theorem contourCall_inj {style : String} {verdict verdict' : Bool} :
    contourCall style verdict = contourCall style verdict' ↔ verdict = verdict' := by
  cases verdict <;> cases verdict' <;> simp [contourCall, lineCall, Argument.int, Argument.text]

/-- The quality of a position decides on the calls and on whether there are any. Where there are, the
renderer takes the depth, or zero where there is none, for the safety depth or not. -/
theorem contour_outcomes (r : Renderer) (hs : Settings.numeric? s.safetyDepth = some safety)
    (htile : IsNumber (f.find? "VALDCO") depth) (hknown : IsNumber (known.find? "VALDCO") depth)
    (ha : a.find? "VALDCO" = some .perFeature)
    (hquality : a.find? "QUAPOS" = known.find? "QUAPOS") :
    (∃ fault, (contour a s).outcome = .error fault ∧ (contour known s).outcome = .error fault) ∨
      ∃ style deferred, (contour a s).outcome = .ok deferred ∧
        r.settle f deferred = some [contourCall style (isSafetyDepth safety (depth.getD 0))] ∧
        (contour known s).outcome =
          .ok [contourCall style (depth.any (isSafetyDepth safety))] := by
  have hread := AttributeSet.getInt_outcome_congr hquality
  rw [contour_of_number hs hknown, contour_of_perFeature ha]
  cases houtcome : (known.getInt "QUAPOS" .null).outcome with
  | error fault =>
    rw [Report.bind_of_error houtcome, Report.bind_of_error (hread.trans houtcome)]
    exact .inl ⟨fault, rfl, rfl⟩
  | ok quality =>
    rw [Report.bind_of_ok houtcome, Report.bind_of_ok (hread.trans houtcome)]
    exact .inr ⟨contourStyle quality, _, rfl,
      settle_deferredContourCall (eval_safetyCondition hs htile) _, rfl⟩

/-- The renderer draws a contour whose depth is left to it as the contour is drawn when its depth is
known, exactly when the contour has a depth or the safety depth is not zero; the quality of the
position may be anything, but one that cannot be read at all is the same fault for both. -/
theorem contour_settles_iff (r : Renderer) (s : Settings) {safety : Number}
    (hsafety : Settings.numeric? s.safetyDepth = some safety) (t : TableSet) {f : TileFeature}
    {a known : AttributeSet} {depth : Option Double}
    (htile : IsNumber (f.find? "VALDCO") depth) (hknown : IsNumber (known.find? "VALDCO") depth)
    (ha : a.find? "VALDCO" = some .perFeature)
    (hquality : a.find? "QUAPOS" = known.find? "QUAPOS") :
    (depcnt02.evaluate a s t).outcome.map (r.settle f) =
        (depcnt02.evaluate known s t).outcome.map some ↔
      (IsOk (depcnt02.evaluate known s t).outcome → depth = none →
        isSafetyDepth safety 0 = false) := by
  show (contour a s).outcome.map _ = (contour known s).outcome.map _ ↔
    (IsOk (contour known s).outcome → _)
  obtain ⟨fault, hdeferred, hdrawn⟩ | ⟨style, deferred, hdeferred, hsettle, hdrawn⟩ :=
    contour_outcomes r hsafety htile hknown ha hquality
  · rw [hdeferred, hdrawn]
    exact ⟨fun _ hok => absurd hok (IsOk.not_error fault), fun _ => rfl⟩
  · have hcalls : (contour a s).outcome.map (r.settle f) = (contour known s).outcome.map some ↔
        isSafetyDepth safety (depth.getD 0) = depth.any (isSafetyDepth safety) := by
      rw [hdeferred, hdrawn, Except.map, Except.map, hsettle]
      simp [contourCall_inj]
    rw [hcalls, hdrawn]
    cases depth with
    | none => exact ⟨fun h _ _ => h, fun h => h (.ok _) rfl⟩
    | some x => exact ⟨fun _ _ hnone => absurd hnone (Option.some_ne_none x), fun _ => rfl⟩

/-- Settings with the safety depth at zero. -/
def zeroSafety : Settings := { safetyDepth := .real 0 }

theorem numeric?_zeroSafety : Settings.numeric? zeroSafety.safetyDepth = some (.real 0) := rfl

/-- With the safety depth at zero, the safety contour is drawn alike whether its depth is left to the
renderer or not; its position is approximate. -/
theorem contour_settles_iff_zeroContour :
    (depcnt02.evaluate ⟨"DEPCNT", [("VALDCO", .perFeature), ("QUAPOS", .text "4")]⟩ zeroSafety
        .lines).outcome.map (Renderer.standard.settle ⟨.null, "LineString", [("VALDCO", .int 0)]⟩) =
      (depcnt02.evaluate ⟨"DEPCNT", [("VALDCO", .real 0), ("QUAPOS", .text "4")]⟩ zeroSafety
        .lines).outcome.map some := by
  have htile : IsNumber
      ((⟨.null, "LineString", [("VALDCO", .int 0)]⟩ : TileFeature).find? "VALDCO") (some 0) :=
    .finite (by decide +kernel : (Value.int 0).finite? = some 0)
  have hknown : IsNumber
      ((⟨"DEPCNT", [("VALDCO", .real 0), ("QUAPOS", .text "4")]⟩ : AttributeSet).find? "VALDCO")
      (some 0) :=
    .finite (by decide +kernel : (Value.real 0).finite? = some 0)
  have hagree := contour_settles_iff .standard zeroSafety numeric?_zeroSafety .lines
    (a := ⟨"DEPCNT", [("VALDCO", .perFeature), ("QUAPOS", .text "4")]⟩) htile hknown rfl rfl
  exact hagree.2 fun _ hnone => absurd hnone (Option.some_ne_none 0)

/-- A contour without a depth is drawn as the safety contour where its depth is left to the renderer
and the safety depth is zero, and as any other contour where it is known that it has none. -/
theorem contour_settles_undepthed :
    ∃ calls,
      (depcnt02.evaluate ⟨"DEPCNT", [("VALDCO", .perFeature)]⟩ zeroSafety .lines).outcome =
          .ok calls ∧
        Renderer.standard.settle ⟨.null, "LineString", []⟩ calls =
          some [lineCall "SOLD" (.int 2) (.text "DEPSC")] ∧
        (depcnt02.evaluate ⟨"DEPCNT", []⟩ zeroSafety .lines).outcome =
          .ok [lineCall "SOLD" (.int 1) (.text "DEPCN")] := by
  have heval := eval_safetyCondition (r := .standard) (f := ⟨.null, "LineString", []⟩)
    numeric?_zeroSafety .absent
  have hsafety : isSafetyDepth (.real 0) ((none : Option Double).getD 0) = true := by
    decide +kernel
  rw [hsafety] at heval
  exact ⟨_, rfl, settle_deferredContourCall heval "SOLD", rfl⟩

end Procedure

end ChartStyle
