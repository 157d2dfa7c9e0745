import ChartStyle.Procedure.Depth
import ChartStyle.Proofs.DoubleOrder
import ChartStyle.Proofs.Outcomes
import ChartStyle.Renderer.Evaluate
import Mathlib.Data.List.Pairwise

/-!
# Steps over thresholds

A step has a colour before its thresholds and one from each threshold on. On ascending thresholds
the renderer picks the colour of the greatest threshold that a number reaches (`pick_toChoice`).
Leaving out the thresholds at which the colour stays as it is changes no pick
(`valueAt_colourChanges`).
-/

set_option autoImplicit false

namespace ChartStyle

/-! ## Ascending numbers -/

/-- Numbers in strictly ascending order. -/
structure Ascending (xs : List Double) : Prop where
  ne_nan : ∀ x ∈ xs, x ≠ .nan
  sorted : xs.Pairwise fun x y => x.rank < y.rank

namespace Ascending

variable {x : Double} {xs ys : List Double}

theorem tail (h : Ascending (x :: xs)) : Ascending xs :=
  ⟨fun z hz => h.ne_nan z (List.mem_cons_of_mem x hz), (List.pairwise_cons.1 h.sorted).2⟩

theorem head_ne_nan (h : Ascending (x :: xs)) : x ≠ .nan := h.ne_nan x List.mem_cons_self

theorem head_lt (h : Ascending (x :: xs)) : ∀ z ∈ xs, x.rank < z.rank :=
  (List.pairwise_cons.1 h.sorted).1

theorem sublist (h : Ascending ys) (hxs : xs.Sublist ys) : Ascending xs :=
  ⟨fun z hz => h.ne_nan z (hxs.subset hz), h.sorted.sublist hxs⟩

theorem cons (h : Ascending xs) (hx : x ≠ .nan) (hlt : ∀ z ∈ xs, x.rank < z.rank) :
    Ascending (x :: xs) :=
  ⟨List.forall_mem_cons.2 ⟨hx, h.ne_nan⟩, List.pairwise_cons.2 ⟨hlt, h.sorted⟩⟩

end Ascending

/-! ## Colour steps -/

/-- A colour before all thresholds, and one from each threshold on. -/
structure ColourStep where
  default : String
  stops : List (Double × String)

namespace ColourStep

/-- The step as a choice by a selector. -/
def toChoice (c : ColourStep) (selector : Expr) : Choice where
  operator := .step
  selector
  stops := c.stops.map fun (x, token) => (.value (.real x), .text token)
  default := .text c.default

/-- The thresholds ascend, and the colour changes at each of them. -/
structure IsReduced (c : ColourStep) : Prop where
  ascending : Ascending (c.stops.map Prod.fst)
  changes : (c.default :: c.stops.map Prod.snd).IsChain (· ≠ ·)

/-- The colour is that of the greatest threshold that the number reaches, or the default before
all of them. -/
def TakesAt (c : ColourStep) (d : Double) (token : String) : Prop :=
  (token = c.default ∧ ∀ stop ∈ c.stops, d.less stop.1 = true) ∨
  ∃ x, (x, token) ∈ c.stops ∧ x.lessEq d = true ∧
    ∀ stop ∈ c.stops, stop.1.lessEq d = true → stop.1.lessEq x = true

end ColourStep

/-- The colour of the last threshold that the number reaches, going up from the first. -/
def valueAt (d : Double) : String → List (Double × String) → String
  | reached, [] => reached
  | reached, (x, token) :: stops => if x.lessEq d then valueAt d token stops else reached

section

variable {d : Double} (hd : d ≠ .nan)

include hd

theorem valueAt_of_below {reached : String} {stops : List (Double × String)}
    (h : ∀ stop ∈ stops, stop.1 ≠ .nan ∧ d.rank < stop.1.rank) :
    valueAt d reached stops = reached := by
  cases stops with
  | nil => rfl
  | cons stop stops =>
    obtain ⟨hnan, hlt⟩ := h stop List.mem_cons_self
    apply if_neg
    rw [Double.lessEq_iff hnan hd]
    exact Int.not_le.2 hlt

theorem takesAt_of_below {reached : String} {stops : List (Double × String)}
    (h : ∀ stop ∈ stops, stop.1 ≠ .nan ∧ d.rank < stop.1.rank) :
    ColourStep.TakesAt ⟨reached, stops⟩ d reached := by
  refine .inl ⟨rfl, fun stop hstop => ?_⟩
  obtain ⟨hnan, hlt⟩ := h stop hstop
  exact (Double.less_iff hd hnan).2 hlt

/-- A threshold that is reached, below all others, gives the colour to begin with. -/
theorem takesAt_cons {x : Double} {reached token found : String} {stops : List (Double × String)}
    (hx : x ≠ .nan) (hxd : x.lessEq d = true)
    (hstops : ∀ stop ∈ stops, stop.1 ≠ .nan ∧ x.rank < stop.1.rank)
    (h : ColourStep.TakesAt ⟨token, stops⟩ d found) :
    ColourStep.TakesAt ⟨reached, (x, token) :: stops⟩ d found := by
  cases h with
  | inl hbelow =>
    obtain ⟨rfl, hbelow⟩ := hbelow
    refine .inr ⟨x, List.mem_cons_self, hxd, ?_⟩
    intro stop hstop hle
    cases List.mem_cons.1 hstop with
    | inl heq =>
      rw [heq]
      exact (Double.lessEq_iff hx hx).2 (Int.le_refl _)
    | inr hstop =>
      have hless := (Double.less_iff hd (hstops stop hstop).1).1 (hbelow stop hstop)
      have hle := (Double.lessEq_iff (hstops stop hstop).1 hd).1 hle
      omega
  | inr hreached =>
    obtain ⟨y, hy, hyd, hgreatest⟩ := hreached
    refine .inr ⟨y, List.mem_cons_of_mem _ hy, hyd, ?_⟩
    intro stop hstop hle
    cases List.mem_cons.1 hstop with
    | inl heq =>
      obtain ⟨hynan, hxy⟩ := hstops _ hy
      rw [heq]
      exact (Double.lessEq_iff hx hynan).2 (Int.le_of_lt hxy)
    | inr hstop => exact hgreatest stop hstop hle

/-- Going up from the first threshold finds the greatest one that is reached. -/
theorem takesAt_valueAt (reached : String) {stops : List (Double × String)}
    (h : Ascending (stops.map Prod.fst)) :
    ColourStep.TakesAt ⟨reached, stops⟩ d (valueAt d reached stops) := by
  induction stops generalizing reached with
  | nil => exact .inl ⟨rfl, fun stop hstop => nomatch hstop⟩
  | cons stop stops ih =>
    obtain ⟨x, token⟩ := stop
    have hx : x ≠ .nan := h.head_ne_nan
    have hstops : ∀ stop ∈ stops, stop.1 ≠ .nan ∧ x.rank < stop.1.rank := by
      intro stop hstop
      have hmem : stop.1 ∈ stops.map Prod.fst := List.mem_map_of_mem hstop
      exact ⟨h.tail.ne_nan _ hmem, h.head_lt _ hmem⟩
    rw [valueAt]
    split
    -- The first threshold is reached: it is the greatest one unless a later one is.
    case isTrue hxd => exact takesAt_cons hd hx hxd hstops (ih token h.tail)
    -- It is not reached, and those after it are higher.
    case isFalse hxd =>
      have hdx : d.rank < x.rank := by
        rw [Double.lessEq_iff hx hd] at hxd
        omega
      refine takesAt_of_below hd (List.forall_mem_cons.2 ⟨⟨hx, hdx⟩, fun stop hstop => ?_⟩)
      obtain ⟨hnan, hlt⟩ := hstops stop hstop
      exact ⟨hnan, Int.lt_trans hdx hlt⟩

end

/-! ## Leaving out thresholds -/

/-- The thresholds at which the colour is another than before, with the colour from there on. -/
def colourChanges (colour : Double → String) : String → List Double → List (Double × String)
  | _, [] => []
  | previous, x :: xs =>
    if colour x = previous then colourChanges colour previous xs
    else (x, colour x) :: colourChanges colour (colour x) xs

variable {colour : Double → String} {previous : String} {xs : List Double}

theorem colourChanges_thresholds_sublist :
    ((colourChanges colour previous xs).map Prod.fst).Sublist xs := by
  induction xs generalizing previous with
  | nil => exact List.Sublist.slnil
  | cons x xs ih =>
    rw [colourChanges]
    split
    · exact ih.cons x
    · exact ih.cons_cons x

theorem colourChanges_isChain :
    (previous :: (colourChanges colour previous xs).map Prod.snd).IsChain (· ≠ ·) := by
  induction xs generalizing previous with
  | nil => exact .singleton previous
  | cons x xs ih =>
    rw [colourChanges]
    split
    · exact ih
    case isFalse hne => exact List.isChain_cons_cons.2 ⟨Ne.symm hne, ih⟩

theorem isReduced_colourChanges (h : Ascending xs) :
    ColourStep.IsReduced ⟨previous, colourChanges colour previous xs⟩ :=
  ⟨h.sublist colourChanges_thresholds_sublist, colourChanges_isChain⟩

/-- A threshold at which the colour stays as it is decides nothing. -/
theorem valueAt_colourChanges {d : Double} (hd : d ≠ .nan) (h : Ascending xs) :
    valueAt d previous (colourChanges colour previous xs) =
      valueAt d previous (xs.map fun x => (x, colour x)) := by
  induction xs generalizing previous with
  | nil => rfl
  | cons x xs ih =>
    rw [List.map_cons, colourChanges]
    by_cases hcolour : colour x = previous
    · rw [if_pos hcolour, ih h.tail]
      simp only [valueAt, hcolour]
      split
      case isTrue => rfl
      case isFalse hxd =>
        -- The threshold left out is not reached, and those after it are higher.
        rw [Double.lessEq_iff h.head_ne_nan hd] at hxd
        apply valueAt_of_below hd
        intro stop hstop
        obtain ⟨y, hy, rfl⟩ := List.mem_map.1 hstop
        have hxy := h.head_lt y hy
        exact ⟨h.tail.ne_nan y hy, by show d.rank < y.rank; omega⟩
    · rw [if_neg hcolour]
      simp only [valueAt]
      rw [ih h.tail]

theorem colourStops_eq {f : Double → Except Fault String} (h : ∀ x ∈ xs, f x = .ok (colour x)) :
    colourStops f previous xs = .ok ((colourChanges colour previous xs).map
      fun (x, token) => (.value (.real x), .text token)) := by
  induction xs generalizing previous with
  | nil => rfl
  | cons x xs ih =>
    obtain ⟨hx, hxs⟩ := List.forall_mem_cons.1 h
    unfold colourStops colourChanges
    rw [hx]
    show (colourStops f (colour x) xs >>= _) = _
    rw [ih hxs]
    by_cases hcolour : colour x = previous
    · rw [if_pos hcolour, hcolour]
      show Except.ok (if previous = previous then _ else _) = _
      rw [if_pos rfl]
    · rw [if_neg hcolour]
      show Except.ok (if colour x = previous then _ else _) = _
      rw [if_neg hcolour]
      rfl

/-! ## The renderer's pick -/

variable (r : Renderer) (f : TileFeature) {d : Double}

theorem Renderer.evalStops_colours (hd : d ≠ .nan) {reached : String}
    {stops : List (Double × String)} (h : Ascending (stops.map Prod.fst)) :
    r.evalStops f (.real d) (some (.text reached))
        (stops.map fun (x, token) => (.real x, .value (.text token))) =
      some (.text (valueAt d reached stops)) := by
  induction stops generalizing reached with
  | nil =>
    unfold Renderer.evalStops
    rfl
  | cons stop stops ih =>
    obtain ⟨x, token⟩ := stop
    rw [List.map_cons]
    unfold Renderer.evalStops valueAt
    have hle : (Number.real x).lessEq (.real d) = x.lessEq d :=
      Bool.eq_iff_iff.2 ((Number.lessEq_real h.head_ne_nan hd).trans
        (Double.lessEq_iff h.head_ne_nan hd).symm)
    show (if (Number.real x).lessEq (.real d) = true then
      r.evalStops f (.real d) (r.eval f (.value (.text token))) _ else _) = _
    rw [hle]
    split
    · rw [Renderer.eval]
      exact ih h.tail
    · rfl

theorem convertStops_values (stops : List (Expr × Value)) :
    Choice.convertStops (fun option => .ok (.value option)) stops =
      .ok (stops.map fun (stop, option) => (stop, .value option)) := by
  induction stops with
  | nil => rfl
  | cons stop stops ih =>
    rw [Choice.convertStops, ih]
    rfl

/-- The renderer picks the colour of the greatest threshold that the selector reaches. -/
theorem Renderer.pick_toChoice (hd : d ≠ .nan) {c : ColourStep}
    (h : Ascending (c.stops.map Prod.fst)) {selector : Expr}
    (hselector : r.eval f selector = some (.real d)) :
    r.pick f (c.toChoice selector) = some (.text (valueAt d c.default c.stops)) := by
  have hexpression : (c.toChoice selector).expression (fun option => .ok (.value option)) =
      .ok (.step selector (.value (.text c.default))
        (c.stops.map fun (x, token) => (.real x, .value (.text token)))) := by
    simp only [Choice.expression, ColourStep.toChoice, convertStops_values]
    show Except.ok (Expr.step selector _ (List.map _ (List.map _ (List.map _ c.stops)))) = _
    simp only [List.map_map, Function.comp_def, Expr.toValue]
  rw [Renderer.pick, hexpression]
  show (r.eval f selector).bind _ = _
  rw [hselector]
  exact r.evalStops_colours f hd h

end ChartStyle
