import ChartStyle.Instruction.Basic
import ChartStyle.Proofs.Outcomes
import Mathlib.Data.List.Forall2

/-!
# Choices option by option

The expression of a choice holds its options converted one by one (`Choice.expression_options`), in
the same places whatever the conversion. So what one conversion makes of each option by looking at
what two others make of it, it makes of the expressions place by place
(`Choice.expression_along`).
-/

set_option autoImplicit false

namespace ChartStyle

theorem forall₂_zipWith {α β γ δ : Type} {R : α → β → Prop} {S : α → γ → Prop} {T : α → δ → Prop}
    {combine : β → γ → δ} (h : ∀ a b c, R a b → S a c → T a (combine b c)) {as : List α}
    {bs : List β} {cs : List γ} (hbs : List.Forall₂ R as bs) (hcs : List.Forall₂ S as cs) :
    List.Forall₂ T as (List.zipWith combine bs cs) := by
  induction hbs generalizing cs with
  | nil =>
    cases hcs
    exact .nil
  | cons hab _ ih =>
    cases hcs with
    | cons hac hrest => exact .cons (h _ _ _ hab hac) (ih hrest)

namespace Expr

/-- The options that an expression picks among, none where it picks nothing. -/
def options : Expr → List Expr
  | .step _ base stops => base :: stops.map (·.2)
  | .cases branches otherwise => otherwise :: branches.map (·.2)
  | .pick _ branches otherwise => otherwise :: branches.map (·.2)
  | _ => []

/-- Changes each option of an expression by the option in its place in a guide. -/
def mapAlong (f : Expr → Expr → Expr) : Expr → Expr → Expr
  | .step _ base stops, .step selector base' stops' =>
    .step selector (f base base')
      (List.zipWith (fun guide stop => (stop.1, f guide.2 stop.2)) stops stops')
  | .cases branches otherwise, .cases branches' otherwise' =>
    .cases (List.zipWith (fun guide branch => (branch.1, f guide.2 branch.2)) branches branches')
      (f otherwise otherwise')
  | .pick _ branches otherwise, .pick selector branches' otherwise' =>
    .pick selector
      (List.zipWith (fun guide branch => (branch.1, f guide.2 branch.2)) branches branches')
      (f otherwise otherwise')
  | _, e => e

end Expr

namespace Choice

variable {f g h : Value → Except Fault Expr} {φ : Expr → Expr → Expr} {stops : List (Expr × Value)}

theorem convertStops_eq_ok_iff {converted : List (Expr × Expr)} :
    convertStops f stops = .ok converted ↔
      List.Forall₂ (fun stop x => f stop.2 = .ok x.2 ∧ x.1 = stop.1) stops converted := by
  induction stops generalizing converted with
  | nil => simp [convertStops, eq_comm]
  | cons stop stops ih =>
    rw [convertStops, List.forall₂_cons_left_iff]
    constructor
    · intro h
      obtain ⟨x, hx, h⟩ := except_bind_eq_ok_iff.1 h
      obtain ⟨rest, hrest, h⟩ := except_bind_eq_ok_iff.1 h
      cases h
      exact ⟨_, _, ⟨hx, rfl⟩, ih.1 hrest, rfl⟩
    · rintro ⟨⟨first, x⟩, rest, ⟨hx, rfl⟩, hrest, rfl⟩
      exact except_bind_eq_ok_iff.2 ⟨x, hx, except_bind_eq_ok_iff.2 ⟨rest, ih.2 hrest, rfl⟩⟩

theorem convertLabels_eq_ok_iff {converted : List (Value × Expr)} :
    convertLabels f stops = .ok converted ↔
      List.Forall₂ (fun stop x => f stop.2 = .ok x.2 ∧
        ∃ labels, stop.1.toValue.items = .ok labels ∧ x.1 = .list labels) stops converted := by
  induction stops generalizing converted with
  | nil => simp [convertLabels, eq_comm]
  | cons stop stops ih =>
    rw [convertLabels, List.forall₂_cons_left_iff]
    constructor
    · intro h
      obtain ⟨labels, hlabels, h⟩ := except_bind_eq_ok_iff.1 h
      obtain ⟨x, hx, h⟩ := except_bind_eq_ok_iff.1 h
      obtain ⟨rest, hrest, h⟩ := except_bind_eq_ok_iff.1 h
      cases h
      exact ⟨_, _, ⟨hx, labels, hlabels, rfl⟩, ih.1 hrest, rfl⟩
    · rintro ⟨⟨first, x⟩, rest, ⟨hx, labels, hlabels, rfl⟩, hrest, rfl⟩
      refine except_bind_eq_ok_iff.2 ⟨labels, hlabels, ?_⟩
      exact except_bind_eq_ok_iff.2 ⟨x, hx, except_bind_eq_ok_iff.2 ⟨rest, ih.2 hrest, rfl⟩⟩

/-! ## The expression of a choice -/

variable {c : Choice} {e : Expr}

theorem expression_step_iff (hc : c.operator = .step) :
    c.expression f = .ok e ↔ ∃ base stops, f c.default = .ok base ∧
      convertStops f c.stops = .ok stops ∧
        e = .step c.selector base (stops.map fun stop => (stop.1.toValue, stop.2)) := by
  rw [expression, hc]
  constructor
  · intro h
    obtain ⟨base, hbase, h⟩ := except_bind_eq_ok_iff.1 h
    obtain ⟨stops, hstops, h⟩ := except_bind_eq_ok_iff.1 h
    cases h
    exact ⟨base, stops, hbase, hstops, rfl⟩
  · rintro ⟨base, stops, hbase, hstops, rfl⟩
    exact except_bind_eq_ok_iff.2 ⟨base, hbase, except_bind_eq_ok_iff.2 ⟨stops, hstops, rfl⟩⟩

theorem expression_case_iff (hc : c.operator = .case) :
    c.expression f = .ok e ↔ ∃ otherwise branches, f c.default = .ok otherwise ∧
      convertStops f c.stops = .ok branches ∧ e = .cases branches otherwise := by
  rw [expression, hc]
  constructor
  · intro h
    obtain ⟨branches, hbranches, h⟩ := except_bind_eq_ok_iff.1 h
    obtain ⟨otherwise, hotherwise, h⟩ := except_bind_eq_ok_iff.1 h
    cases h
    exact ⟨otherwise, branches, hotherwise, hbranches, rfl⟩
  · rintro ⟨otherwise, branches, hotherwise, hbranches, rfl⟩
    refine except_bind_eq_ok_iff.2 ⟨branches, hbranches, ?_⟩
    exact except_bind_eq_ok_iff.2 ⟨otherwise, hotherwise, rfl⟩

theorem expression_pick_iff (hc : c.operator = .pick) :
    c.expression f = .ok e ↔ ∃ otherwise branches, f c.default = .ok otherwise ∧
      convertLabels f c.stops = .ok branches ∧ e = .pick c.selector branches otherwise := by
  rw [expression, hc]
  constructor
  · intro h
    obtain ⟨branches, hbranches, h⟩ := except_bind_eq_ok_iff.1 h
    obtain ⟨otherwise, hotherwise, h⟩ := except_bind_eq_ok_iff.1 h
    cases h
    exact ⟨otherwise, branches, hotherwise, hbranches, rfl⟩
  · rintro ⟨otherwise, branches, hotherwise, hbranches, rfl⟩
    refine except_bind_eq_ok_iff.2 ⟨branches, hbranches, ?_⟩
    exact except_bind_eq_ok_iff.2 ⟨otherwise, hotherwise, rfl⟩

theorem expression_ne_ok {name : String} (hc : c.operator = .unknown name) :
    c.expression f ≠ .ok e := by
  intro h
  rw [expression, hc] at h
  cases h

/-! ## Conversions along each other -/

section

variable (hφ : ∀ v x y, f v = .ok x → g v = .ok y → h v = .ok (φ x y))

include hφ

theorem convertStops_along {xs ys : List (Expr × Expr)} (hxs : convertStops f stops = .ok xs)
    (hys : convertStops g stops = .ok ys) :
    convertStops h stops = .ok (List.zipWith (fun x y => (y.1, φ x.2 y.2)) xs ys) := by
  rw [convertStops_eq_ok_iff] at hxs hys ⊢
  refine forall₂_zipWith ?_ hxs hys
  rintro stop x y ⟨hx, -⟩ ⟨hy, hstop⟩
  exact ⟨hφ _ _ _ hx hy, hstop⟩

theorem convertLabels_along {xs ys : List (Value × Expr)} (hxs : convertLabels f stops = .ok xs)
    (hys : convertLabels g stops = .ok ys) :
    convertLabels h stops = .ok (List.zipWith (fun x y => (y.1, φ x.2 y.2)) xs ys) := by
  rw [convertLabels_eq_ok_iff] at hxs hys ⊢
  refine forall₂_zipWith ?_ hxs hys
  rintro stop x y ⟨hx, -⟩ ⟨hy, hlabels⟩
  exact ⟨hφ _ _ _ hx hy, hlabels⟩

/-- A conversion that changes the options of a second one by those of a first does so within the
expression of a choice. -/
theorem expression_along {guide changed : Expr} (hguide : c.expression f = .ok guide)
    (hchanged : c.expression g = .ok changed) :
    c.expression h = .ok (guide.mapAlong φ changed) := by
  cases hc : c.operator with
  | step =>
    obtain ⟨x, xs, hx, hxs, rfl⟩ := (expression_step_iff hc).1 hguide
    obtain ⟨y, ys, hy, hys, rfl⟩ := (expression_step_iff hc).1 hchanged
    refine (expression_step_iff hc).2 ⟨_, _, hφ _ x y hx hy, convertStops_along hφ hxs hys, ?_⟩
    -- Thresholds become values, whether the options are changed before or after.
    simp only [Expr.mapAlong, List.map_zipWith, List.zipWith_map]
  | case =>
    obtain ⟨x, xs, hx, hxs, rfl⟩ := (expression_case_iff hc).1 hguide
    obtain ⟨y, ys, hy, hys, rfl⟩ := (expression_case_iff hc).1 hchanged
    exact (expression_case_iff hc).2 ⟨_, _, hφ _ x y hx hy, convertStops_along hφ hxs hys, rfl⟩
  | pick =>
    obtain ⟨x, xs, hx, hxs, rfl⟩ := (expression_pick_iff hc).1 hguide
    obtain ⟨y, ys, hy, hys, rfl⟩ := (expression_pick_iff hc).1 hchanged
    exact (expression_pick_iff hc).2 ⟨_, _, hφ _ x y hx hy, convertLabels_along hφ hxs hys, rfl⟩
  | unknown name => exact absurd hguide (expression_ne_ok hc)

end

/-- The options of the expression are those of the choice, converted. -/
theorem expression_options (h : c.expression f = .ok e) :
    List.Forall₂ (fun v option => f v = .ok option) c.options e.options := by
  cases hc : c.operator with
  | step =>
    obtain ⟨base, stops, hbase, hstops, rfl⟩ := (expression_step_iff hc).1 h
    have hoptions := (convertStops_eq_ok_iff.1 hstops).imp fun _ _ hx => hx.1
    refine .cons hbase ?_
    rw [List.map_map]
    exact List.forall₂_map_left_iff.2 (List.forall₂_map_right_iff.2 hoptions)
  | case =>
    obtain ⟨otherwise, branches, hotherwise, hbranches, rfl⟩ := (expression_case_iff hc).1 h
    have hoptions := (convertStops_eq_ok_iff.1 hbranches).imp fun _ _ hx => hx.1
    exact .cons hotherwise (List.forall₂_map_left_iff.2 (List.forall₂_map_right_iff.2 hoptions))
  | pick =>
    obtain ⟨otherwise, branches, hotherwise, hbranches, rfl⟩ := (expression_pick_iff hc).1 h
    have hoptions := (convertLabels_eq_ok_iff.1 hbranches).imp fun _ _ hx => hx.1
    exact .cons hotherwise (List.forall₂_map_left_iff.2 (List.forall₂_map_right_iff.2 hoptions))
  | unknown name => exact absurd h (expression_ne_ok hc)

end Choice

end ChartStyle
