import ChartStyle.Procedure.Evaluate
import ChartStyle.Proofs.AttributeReading
import ChartStyle.Proofs.StepChoice

/-!
# Depth bands in the renderer

A depth that is known is banded now; a depth that only the renderer knows is banded by a step over
the thresholds. The two agree for every depth and for thresholds in any order (`depthChoice_exact`).
The thresholds that count are zero and those of the settings. Between two that follow each other
all comparisons with a threshold come out alike (`bandOf_eq_of_no_break_between`), so the bands at
the breaks are all the bands there are, whichever of the thresholds never decide anything.
-/

set_option autoImplicit false

namespace ChartStyle

/-- Three thresholds in any order, infinite ones included. -/
structure Depths where
  shallow : Double
  safety : Double
  deep : Double
  shallow_ne_nan : shallow ≠ .nan
  safety_ne_nan : safety ≠ .nan
  deep_ne_nan : deep ≠ .nan

/-- The settings with other thresholds. -/
def Settings.withDepths (s : Settings) (t : Depths) : Settings :=
  { s with
    shallowDepth := .real t.shallow
    safetyDepth := .real t.safety
    deepDepth := .real t.deep }

/-! ## The breaks -/

theorem mem_of_mem_insertBreak {x z : Double} {xs : List Double} (h : z ∈ insertBreak x xs) :
    z = x ∨ z ∈ xs := by
  induction xs with
  | nil => exact .inl (List.mem_singleton.1 h)
  | cons y ys ih =>
    rw [insertBreak] at h
    split at h
    · exact .inr h
    · split at h
      · exact List.mem_cons.1 h
      · cases List.mem_cons.1 h with
        | inl hz => exact .inr (hz ▸ List.mem_cons_self)
        | inr hz => exact (ih hz).imp_right (List.mem_cons_of_mem y)

/-- A break that is put in keeps the list ascending; one that is there already changes nothing. -/
theorem ascending_insertBreak {x : Double} {xs : List Double} (hx : x ≠ .nan)
    (h : Ascending xs) : Ascending (insertBreak x xs) := by
  induction xs with
  | nil => exact h.cons hx fun z hz => nomatch hz
  | cons y ys ih =>
    have hy := h.head_ne_nan
    rw [insertBreak]
    split
    -- An equal break is there.
    case isTrue => exact h
    case isFalse hsame =>
      rw [Double.same_iff hx hy] at hsame
      split
      -- The new break comes first.
      case isTrue hless =>
        rw [Double.less_iff hx hy] at hless
        refine h.cons hx ?_
        intro z hz
        cases List.mem_cons.1 hz with
        | inl hz => exact hz ▸ hless
        | inr hz => exact Int.lt_trans hless (h.head_lt z hz)
      -- It comes later, after a break that is less.
      case isFalse hless =>
        rw [Double.less_iff hx hy] at hless
        refine (ih h.tail).cons hy ?_
        intro z hz
        cases mem_of_mem_insertBreak hz with
        | inl hz =>
          rw [hz]
          omega
        | inr hz => exact h.head_lt z hz

/-- A number equal to one that is put in, or to one that was there, is there afterwards. -/
theorem mem_ranks_insertBreak {x : Double} {xs : List Double} (hx : x ≠ .nan)
    (h : Ascending xs) (n : Int) :
    n ∈ (insertBreak x xs).map Double.rank ↔ n = x.rank ∨ n ∈ xs.map Double.rank := by
  induction xs with
  | nil => simp [insertBreak]
  | cons y ys ih =>
    have hy := h.head_ne_nan
    rw [insertBreak]
    split
    case isTrue hsame =>
      rw [Double.same_iff hx hy] at hsame
      simp [hsame]
    case isFalse =>
      split
      · simp
      · rw [List.map_cons, List.mem_cons, ih h.tail, List.map_cons, List.mem_cons]
        exact or_left_comm

/-! ## The band of a depth -/

namespace Depths

variable (t : Depths)

/-- The band of a depth by the ranks of the thresholds. -/
def bandOf (d : Double) : DepthBand :=
  if d.rank < 0 then .intertidal
  else if d.rank < t.shallow.rank then .shallow
  else if d.rank < t.safety.rank then .mediumShallow
  else if d.rank < t.deep.rank then .mediumDeep
  else .deep

theorem bandOf_of_neg {d : Double} (h : d.rank < 0) : t.bandOf d = .intertidal := if_pos h

/-- Zero and the thresholds in ascending order. -/
def breaks : List Double :=
  insertBreak t.deep (insertBreak t.safety (insertBreak t.shallow [0]))

theorem depthBreaks_withDepths (s : Settings) : depthBreaks (s.withDepths t) = .ok t.breaks := rfl

theorem zero_ne_nan : (0 : Double) ≠ .nan := by
  rw [Double.zero_eq]
  exact Double.noConfusion

theorem ascending_zero : Ascending [0] :=
  ⟨fun _ hx => List.mem_singleton.1 hx ▸ zero_ne_nan, List.pairwise_singleton _ _⟩

theorem ascending_breaks : Ascending t.breaks :=
  ascending_insertBreak t.deep_ne_nan
    (ascending_insertBreak t.safety_ne_nan
      (ascending_insertBreak t.shallow_ne_nan ascending_zero))

theorem mem_ranks_breaks (n : Int) :
    n ∈ t.breaks.map Double.rank ↔
      n = t.deep.rank ∨ n = t.safety.rank ∨ n = t.shallow.rank ∨ n = 0 := by
  have hshallow := ascending_insertBreak t.shallow_ne_nan ascending_zero
  have hsafety := ascending_insertBreak t.safety_ne_nan hshallow
  rw [breaks, mem_ranks_insertBreak t.deep_ne_nan hsafety,
    mem_ranks_insertBreak t.safety_ne_nan hshallow,
    mem_ranks_insertBreak t.shallow_ne_nan ascending_zero]
  simp [Double.rank_zero]

/-- The depths from one break up to the next are in one band. -/
theorem bandOf_eq_of_no_break_between {x d : Double} (hxd : x.rank ≤ d.rank)
    (hbetween : ∀ y ∈ t.breaks, y.rank ≤ d.rank → y.rank ≤ x.rank) :
    t.bandOf d = t.bandOf x := by
  -- No break lies between the two, so a break is beyond both or beyond neither.
  have hlt {n : Int} (hn : n ∈ t.breaks.map Double.rank) : d.rank < n ↔ x.rank < n := by
    obtain ⟨y, hy, rfl⟩ := List.mem_map.1 hn
    constructor
    · exact Int.lt_of_le_of_lt hxd
    · intro h
      by_contra hd
      exact absurd (hbetween y hy (Int.not_lt.1 hd)) (Int.not_le.2 h)
  have hzero := hlt ((t.mem_ranks_breaks 0).2 (.inr (.inr (.inr rfl))))
  have hshallow := hlt ((t.mem_ranks_breaks _).2 (.inr (.inr (.inl rfl))))
  have hsafety := hlt ((t.mem_ranks_breaks _).2 (.inr (.inl rfl)))
  have hdeep := hlt ((t.mem_ranks_breaks _).2 (.inl rfl))
  simp only [bandOf, hzero, hshallow, hsafety, hdeep]

/-- The depths before the first break are intertidal. -/
theorem bandOf_of_below_breaks {d : Double} (h : ∀ x ∈ t.breaks, d.rank < x.rank) :
    t.bandOf d = .intertidal := by
  obtain ⟨x, hx, hrank⟩ :=
    List.mem_map.1 ((t.mem_ranks_breaks 0).2 (.inr (.inr (.inr rfl))))
  exact t.bandOf_of_neg (hrank ▸ h x hx)

/-- One less than the first break is a depth before it, also where the grid of the doubles is
too coarse to take one away. -/
theorem bandOf_before_breaks :
    (t.breaks.headD 0).sub 1 ≠ .nan ∧ t.bandOf ((t.breaks.headD 0).sub 1) = .intertidal := by
  have hascending := t.ascending_breaks
  obtain ⟨y, hy, hrank⟩ :=
    List.mem_map.1 ((t.mem_ranks_breaks 0).2 (.inr (.inr (.inr rfl))))
  -- Zero is a break, so the first break is at most zero.
  cases hbreaks : t.breaks with
  | nil => exact absurd (hbreaks ▸ hy) List.not_mem_nil
  | cons x xs =>
    rw [hbreaks] at hascending hy
    have hx : x.rank ≤ 0 := by
      cases List.mem_cons.1 hy with
      | inl hyx => exact Int.le_of_eq (hyx ▸ hrank)
      | inr hyxs => exact Int.le_of_lt (hrank ▸ hascending.head_lt y hyxs)
    obtain ⟨hnan, hneg⟩ := Double.rank_sub_one_neg hascending.head_ne_nan hx
    exact ⟨hnan, t.bandOf_of_neg hneg⟩

end Depths

theorem shallowerThan_real {d x : Double} (hd : d ≠ .nan) (hx : x ≠ .nan) :
    shallowerThan (.real d) (.real x) = .ok (decide (d.rank < x.rank)) := by
  show Except.ok (d.less x) = _
  rw [Bool.eq_iff_iff.2 ((Double.less_iff hd hx).trans decide_eq_true_iff.symm)]

theorem depthBand_withDepths (s : Settings) (t : Depths) {d : Double} (hd : d ≠ .nan) :
    depthBand (.real d) (s.withDepths t) = .ok (t.bandOf d) := by
  have hzero : (Number.real d).less (.whole 0) = decide (d.rank < 0) :=
    Bool.eq_iff_iff.2 ((Number.less_zero_iff hd).trans decide_eq_true_iff.symm)
  unfold depthBand Settings.withDepths Depths.bandOf
  rw [hzero, shallowerThan_real hd t.shallow_ne_nan, shallowerThan_real hd t.safety_ne_nan,
    shallowerThan_real hd t.deep_ne_nan]
  -- One case for each band, in the order in which the thresholds are tried.
  by_cases h0 : d.rank < 0
  · rw [if_pos h0, if_pos (decide_eq_true h0)]
    rfl
  by_cases h1 : d.rank < t.shallow.rank
  · simp [h0, h1]
    rfl
  by_cases h2 : d.rank < t.safety.rank
  · simp [h0, h1, h2]
    rfl
  by_cases h3 : d.rank < t.deep.rank
  · simp [h0, h1, h2, h3]
    rfl
  · simp [h0, h1, h2, h3]
    rfl

/-! ## The step of a colour table -/

namespace Depths

variable (t : Depths) (colours : DepthBand → String)

/-- The step over the breaks: drying depths before them all, and the band of each break from
there on. -/
def colourStep : ColourStep where
  default := colours .intertidal
  stops := colourChanges (fun x => colours (t.bandOf x)) (colours .intertidal) t.breaks

theorem isReduced_colourStep : (t.colourStep colours).IsReduced :=
  isReduced_colourChanges t.ascending_breaks

theorem depthChoice_withDepths (s : Settings) (code : String) (fallback : Value) :
    depthChoice code fallback (s.withDepths t) colours =
      .ok ((t.colourStep colours).toChoice (numericAttribute code fallback)) := by
  have hcolour {x : Double} (hx : x ≠ .nan) :
      (depthBand (.real x) (s.withDepths t) >>= fun band => pure (colours band)) =
        .ok (colours (t.bandOf x)) := by
    rw [depthBand_withDepths s t hx]
    rfl
  obtain ⟨hnan, hbefore⟩ := t.bandOf_before_breaks
  have hdefault := hcolour hnan
  rw [hbefore] at hdefault
  have hbreaks : ∀ x ∈ t.breaks, (depthBand (.real x) (s.withDepths t) >>= fun band =>
      pure (colours band)) = .ok (colours (t.bandOf x)) :=
    fun x hx => hcolour (t.ascending_breaks.ne_nan x hx)
  unfold depthChoice
  rw [depthBreaks_withDepths]
  show ((depthBand _ _ >>= fun band => pure (colours band)) >>= _) = _
  rw [hdefault]
  show (colourStops _ _ _ >>= _) = _
  rw [colourStops_eq hbreaks]
  rfl

/-- The step has at every depth the colour of the depth's band. -/
theorem valueAt_colourStep {d : Double} (hd : d ≠ .nan) :
    valueAt d (t.colourStep colours).default (t.colourStep colours).stops =
      colours (t.bandOf d) := by
  have hnan := t.ascending_breaks.ne_nan
  have hall : Ascending ((t.breaks.map fun x => (x, colours (t.bandOf x))).map Prod.fst) := by
    rw [List.map_map]
    exact (List.map_id t.breaks).symm ▸ t.ascending_breaks
  show valueAt d (colours .intertidal) (colourChanges _ _ t.breaks) = _
  rw [valueAt_colourChanges hd t.ascending_breaks]
  cases takesAt_valueAt hd (colours .intertidal) hall with
  | inl hbelow =>
    obtain ⟨hvalue, hbelow⟩ := hbelow
    have hintertidal : t.bandOf d = .intertidal := by
      apply t.bandOf_of_below_breaks
      intro x hx
      exact (Double.less_iff hd (hnan x hx)).1 (hbelow _ (List.mem_map_of_mem hx))
    rw [hvalue, hintertidal]
  | inr hreached =>
    -- The greatest break that is reached has no other break between it and the depth.
    obtain ⟨x, hmem, hxd, hgreatest⟩ := hreached
    obtain ⟨y, hy, heq⟩ := List.mem_map.1 hmem
    obtain ⟨rfl, hvalue⟩ := Prod.mk.inj heq
    rw [← hvalue, t.bandOf_eq_of_no_break_between ((Double.lessEq_iff (hnan y hy) hd).1 hxd)]
    intro z hz hzd
    have hle := hgreatest _ (List.mem_map_of_mem hz) ((Double.lessEq_iff (hnan z hz) hd).2 hzd)
    exact (Double.lessEq_iff (hnan z hz) (hnan y hy)).1 hle

theorem takesAt_colourStep {d : Double} (hd : d ≠ .nan) :
    (t.colourStep colours).TakesAt d (colours (t.bandOf d)) := by
  rw [← t.valueAt_colourStep colours hd]
  exact takesAt_valueAt hd _ (t.isReduced_colourStep colours).ascending

theorem pick_colourStep (r : Renderer) (f : TileFeature) {d : Double} (hd : d ≠ .nan)
    {selector : Expr} (h : r.eval f selector = some (.real d)) :
    r.pick f ((t.colourStep colours).toChoice selector) =
      some (.text (colours (t.bandOf d))) := by
  rw [r.pick_toChoice f hd (t.isReduced_colourStep colours).ascending h,
    t.valueAt_colourStep colours hd]

end Depths

/-! ## Known depths and depths of a tile -/

/-- Both have the attribute, and it is the same finite number. -/
def SameNumber (code : String) (f : TileFeature) (a : AttributeSet) : Prop :=
  ∃ v w x, f.find? code = some v ∧ a.find? code = some w ∧
    v.finite? = some x ∧ w.finite? = some x

/-- Neither has the attribute. -/
def BothLack (code : String) (f : TileFeature) (a : AttributeSet) : Prop :=
  f.find? code = none ∧ a.find? code = none

/-- The renderer picks from one argument for the feature what the other is. -/
def Renderer.PicksAs (r : Renderer) (f : TileFeature) (deferred known : Argument) : Prop :=
  ∃ c token, deferred = .choice c ∧ known = .text token ∧ r.pick f c = some (.text token)

namespace Procedure

variable {a : AttributeSet} {code : String}

theorem depth?_of_finite {v : Value} {x : Double} (hv : a.find? code = some v)
    (hx : v.finite? = some x) (standIn : Double) : depth? a code standIn = pure (some x) := by
  rw [depth?, if_pos (AttributeSet.isKnown_of_finite hv hx).1, AttributeSet.getReal_of_finite hv hx]
  rfl

theorem depth?_of_unknown (h : a.isKnown code = false) (standIn : Double) :
    depth? a code standIn = pure none := by
  rw [depth?, h]
  rfl

end Procedure

/-- The first expression counts when its value is a finite number. -/
theorem Renderer.eval_toNumber {r : Renderer} {f : TileFeature} {e : Expr} {es : List Expr}
    {v : Value} {x : Double} (he : r.eval f e = some v) (hv : v.finite? = some x) :
    r.eval f (.toNumber (e :: es)) = some (.real x) := by
  rw [Renderer.eval, Renderer.evalNumber, he]
  simp only [Option.bind_eq_bind, Option.bind_some, r.number_finite v x hv]
  rfl

/-- The number that an attribute has for the renderer, or the fallback where it is absent. -/
theorem Renderer.eval_numericAttribute (r : Renderer) {f : TileFeature} {code : String}
    {fallback : Value} {x : Double}
    (h : ((f.find? code).getD fallback).finite? = some x) :
    r.eval f (numericAttribute code fallback) = some (.real x) := by
  have hcoalesce : r.eval f (.coalesce [.get code, .value fallback]) =
      some ((f.find? code).getD fallback) := by
    simp only [Renderer.eval, Renderer.evalCoalesce]
    -- A finite number is not null, so it is the first value that counts.
    cases hv : f.find? code with
    | none =>
      rw [hv] at h
      cases fallback with
      | null => cases h
      | bool b | int n | real y | text s | list items | map entries | perFeature => rfl
    | some v =>
      rw [hv] at h
      cases v with
      | null => cases h
      | bool b | int n | real y | text s | list items | map entries | perFeature => rfl
  exact Renderer.eval_toNumber hcoalesce h

/-! ## The procedures -/

namespace Procedure

variable (r : Renderer) (s : Settings) (t : Depths) {f : TileFeature} {a known : AttributeSet}

/-- A depth area whose depth is left to the renderer has the colour it has for a known depth. -/
theorem areaColour_picksAs (ha : a.find? "DRVAL1" = some .perFeature)
    (h : SameNumber "DRVAL1" f known ∨ BothLack "DRVAL1" f known) :
    ∃ x y, areaColour a (s.withDepths t) = pure x ∧
      areaColour known (s.withDepths t) = pure y ∧ r.PicksAs f x y := by
  have hdeferred : areaColour a (s.withDepths t) = pure (.choice
      ((t.colourStep DepthBand.areaColour).toChoice
        (numericAttribute "DRVAL1" (.real (-1))))) := by
    rw [areaColour, if_pos (AttributeSet.isPerFeature_of_perFeature ha).2, t.depthChoice_withDepths]
    rfl
  -- The depth that counts is the number of both, or drying for both.
  have hdepth : ∃ d : Double, d.isFinite = true ∧
      ((f.find? "DRVAL1").getD (.real (-1))).finite? = some d ∧
      known.isPerFeature "DRVAL1" = false ∧
      ∃ depth, depth? known "DRVAL1" (-1) = pure depth ∧ depth.getD (-1) = d := by
    cases h with
    | inl hsame =>
      obtain ⟨v, w, x, hv, hw, hvx, hwx⟩ := hsame
      refine ⟨x, Value.isFinite_of_finite? hvx, ?_, (AttributeSet.isKnown_of_finite hw hwx).2,
        some x, depth?_of_finite hw hwx (-1), rfl⟩
      rw [hv]
      exact hvx
    | inr hlack =>
      obtain ⟨hf, hknown⟩ := hlack
      have hfinite : (-1 : Double).isFinite = true := by decide +kernel
      refine ⟨-1, hfinite, ?_, (AttributeSet.isKnown_of_absent hknown).2,
        none, depth?_of_unknown (AttributeSet.isKnown_of_absent hknown).1 (-1), rfl⟩
      rw [hf]
      exact Value.finite?_real_iff.2 ⟨hfinite, rfl⟩
  obtain ⟨d, hfinite, heval, hper, depth, hdepth, hd⟩ := hdepth
  have hnan := Double.ne_nan_of_isFinite hfinite
  have hknown : areaColour known (s.withDepths t) =
      pure (.text (t.bandOf d).areaColour) := by
    rw [areaColour, hper, hdepth]
    show (liftM (depthBand (.real (depth.getD (-1))) (s.withDepths t)) >>= _) = _
    rw [hd, depthBand_withDepths s t hnan]
    rfl
  exact ⟨_, _, hdeferred, hknown, _, _, rfl, rfl,
    t.pick_colourStep _ r f hnan (r.eval_numericAttribute heval)⟩

theorem depthArea_of_areaColour {x : Argument} (s : Settings) (h : areaColour a s = pure x) :
    depthArea a s = pure (⟨.ac, [x]⟩ :: if a.objectClass = "DRGARE" then
      [⟨.ap, [.text "DRGARE01"]⟩, lineCall "DASH" (.int 1) (.text "CHGRF")] else []) := by
  rw [depthArea, h]
  show (if a.objectClass = "DRGARE" then _ else _) = _
  split <;> rfl

/-- A sounding whose depth is left to the renderer has the colour it has for a known depth. -/
theorem sounding_picksAs (ha : a.find? "DEPTH" = some .perFeature)
    (h : SameNumber "DEPTH" f known) :
    ∃ figure x y,
      sounding a (s.withDepths t) =
        pure [textCall (.attribute "DEPTH") 1 2 "15108" 0 0 x 33] ∧
      sounding known (s.withDepths t) = pure [textCall (.text figure) 1 2 "15108" 0 0 y 33] ∧
      r.PicksAs f x y := by
  obtain ⟨v, w, d, hv, hw, hvd, hwd⟩ := h
  have hnan := Double.ne_nan_of_isFinite (Value.isFinite_of_finite? hvd)
  have hdeferred : sounding a (s.withDepths t) = pure [textCall (.attribute "DEPTH") 1 2 "15108"
      0 0 (.choice ((t.colourStep DepthBand.soundingColour).toChoice
        (numericAttribute "DEPTH" (.real 0)))) 33] := by
    rw [sounding, depth?_of_unknown (AttributeSet.isPerFeature_of_perFeature ha).1]
    show (liftM (depthChoice "DEPTH" (.real 0) (s.withDepths t) _) >>= _) = _
    rw [t.depthChoice_withDepths]
    rfl
  have hknown : sounding known (s.withDepths t) = pure [textCall (.text (depthFigure d)) 1 2
      "15108" 0 0 (.text (t.bandOf d).soundingColour) 33] := by
    rw [sounding, depth?_of_finite hw hwd]
    show (liftM (depthBand (.real d) (s.withDepths t)) >>= _) = _
    rw [depthBand_withDepths s t hnan]
    rfl
  have heval : ((f.find? "DEPTH").getD (.real 0)).finite? = some d := by
    rw [hv]
    exact hvd
  exact ⟨_, _, _, hdeferred, hknown, _, _, rfl, rfl,
    t.pick_colourStep _ r f hnan (r.eval_numericAttribute heval)⟩

end Procedure

/-- The step over the thresholds bands the depths as they are banded when they are known: its
thresholds ascend, its colour changes at each of them, and at every depth it has the colour of the
depth's band. So a depth area and a sounding whose depth is left to the renderer are drawn in the
colour that they have when their depth is known, and a depth area without a depth in that of a
depth area without one. -/
theorem depthChoice_exact (r : Renderer) (s : Settings) (t : Depths) :
    (∀ (code : String) (fallback : Value) (colours : DepthBand → String), ∃ c : ColourStep,
      depthChoice code fallback (s.withDepths t) colours =
        .ok (c.toChoice (numericAttribute code fallback)) ∧
      c.IsReduced ∧
      ∀ d : Double, d ≠ .nan → ∃ band,
        depthBand (.real d) (s.withDepths t) = .ok band ∧
        c.TakesAt d (colours band) ∧
        ∀ f, r.eval f (numericAttribute code fallback) = some (.real d) →
          r.pick f (c.toChoice (numericAttribute code fallback)) =
            some (.text (colours band))) ∧
    (∀ (f : TileFeature) (a known : AttributeSet) (ts : TableSet),
      a.find? "DRVAL1" = some .perFeature → known.objectClass = a.objectClass →
      SameNumber "DRVAL1" f known ∨ BothLack "DRVAL1" f known →
      ∃ x y overlays,
        Procedure.depare01.evaluate a (s.withDepths t) ts = pure (⟨.ac, [x]⟩ :: overlays) ∧
        Procedure.depare01.evaluate known (s.withDepths t) ts =
          pure (⟨.ac, [y]⟩ :: overlays) ∧
        r.PicksAs f x y) ∧
    (∀ (f : TileFeature) (a known : AttributeSet) (ts : TableSet),
      a.find? "DEPTH" = some .perFeature → SameNumber "DEPTH" f known →
      ∃ figure x y,
        Procedure.soundg02.evaluate a (s.withDepths t) ts =
          pure [Procedure.textCall (.attribute "DEPTH") 1 2 "15108" 0 0 x 33] ∧
        Procedure.soundg02.evaluate known (s.withDepths t) ts =
          pure [Procedure.textCall (.text figure) 1 2 "15108" 0 0 y 33] ∧
        r.PicksAs f x y) := by
  refine ⟨?_, ?_, ?_⟩
  -- The step itself.
  · intro code fallback colours
    refine ⟨t.colourStep colours, t.depthChoice_withDepths colours s code fallback,
      t.isReduced_colourStep colours, fun d hd => ?_⟩
    exact ⟨t.bandOf d, depthBand_withDepths s t hd, t.takesAt_colourStep colours hd,
      fun f h => t.pick_colourStep colours r f hd h⟩
  -- Depth areas.
  · intro f a known ts ha hclass hdepth
    obtain ⟨x, y, hx, hy, hpicks⟩ := Procedure.areaColour_picksAs r s t ha hdepth
    refine ⟨x, y, _, Procedure.depthArea_of_areaColour _ hx, ?_, hpicks⟩
    rw [← hclass]
    exact Procedure.depthArea_of_areaColour _ hy
  -- Soundings.
  · intro f a known ts ha hdepth
    exact Procedure.sounding_picksAs r s t ha hdepth

/-- Thresholds out of order: the safety depth is negative, and the others are equal. -/
def crossedDepths : Depths where
  shallow := 10
  safety := -2
  deep := 10
  shallow_ne_nan := by decide +kernel
  safety_ne_nan := by decide +kernel
  deep_ne_nan := by decide +kernel

/-- A dredged area of five metres is coloured alike, whether the renderer reads the depth or not. -/
theorem depthChoice_exact_crossedDepths :
    ∃ x y overlays,
      Procedure.depare01.evaluate ⟨"DRGARE", [("DRVAL1", .perFeature)]⟩
        (Settings.withDepths {} crossedDepths) .areas = pure (⟨.ac, [x]⟩ :: overlays) ∧
      Procedure.depare01.evaluate ⟨"DRGARE", [("DRVAL1", .real 5)]⟩
        (Settings.withDepths {} crossedDepths) .areas = pure (⟨.ac, [y]⟩ :: overlays) ∧
      Renderer.standard.PicksAs ⟨.null, "Polygon", [("DRVAL1", .int 5)]⟩ x y := by
  obtain ⟨-, harea, -⟩ := depthChoice_exact .standard {} crossedDepths
  exact harea ⟨.null, "Polygon", [("DRVAL1", .int 5)]⟩ ⟨"DRGARE", [("DRVAL1", .perFeature)]⟩
    ⟨"DRGARE", [("DRVAL1", .real 5)]⟩ .areas rfl rfl
    (.inl ⟨.int 5, .real 5, 5, rfl, rfl, by decide +kernel, by decide +kernel⟩)

end ChartStyle
