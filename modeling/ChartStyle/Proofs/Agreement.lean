import ChartStyle.Report

/-!
# Agreement of two runs

Two runs agree up to a view when they note the same events and either fail with the same fault or
give values of which the view sees no difference. Runs that agree can be followed by steps that
agree on whatever the view does not tell apart (`except_view_bind`, `Report.through_bind`).
-/

set_option autoImplicit false

namespace ChartStyle

variable {α β γ δ : Type}

section

variable {ε : Type} {x y : Except ε α} {f g : α → Except ε β} {view : α → γ} {view' : β → δ}

theorem except_view_bind (hx : x.map view = y.map view)
    (hf : ∀ a b, view a = view b → (f a).map view' = (g b).map view') :
    (x >>= f).map view' = (y >>= g).map view' := by
  -- Runs that agree are both faults or both values.
  cases x with
  | error fault =>
    cases y with
    | error fault' =>
      cases hx
      rfl
    | ok b => cases hx
  | ok a =>
    cases y with
    | error fault' => cases hx
    | ok b => exact hf a b (Except.ok.inj hx)

theorem except_view_bind_same (hf : ∀ a, (f a).map view' = (g a).map view') :
    (x >>= f).map view' = (x >>= g).map view' := by
  cases x with
  | error fault => rfl
  | ok a => exact hf a

/-- Outcomes that agree are the same fault, or values of which the view sees no difference. -/
theorem except_view_eq_iff : x.map view = y.map view ↔
    (∃ fault, x = .error fault ∧ y = .error fault) ∨
      ∃ a b, x = .ok a ∧ y = .ok b ∧ view a = view b := by
  cases x <;> cases y <;> simp [Except.map, eq_comm]

end

namespace Report

variable {x y : Report α} {f g : α → Report β} {view : α → γ} {view' : β → δ}

/-- The report with its value seen through a view. -/
def through (r : Report α) (view : α → γ) : Report γ := ⟨r.events, r.outcome.map view⟩

theorem through_lift {x y : Except Fault α} (h : x.map view = y.map view) :
    (liftM x : Report α).through view = (liftM y : Report α).through view :=
  congrArg (Report.mk []) h

theorem through_bind (hx : x.through view = y.through view)
    (hf : ∀ a b, view a = view b → (f a).through view' = (g b).through view') :
    (x >>= f).through view' = (y >>= g).through view' := by
  obtain ⟨events, outcome⟩ := x
  obtain ⟨events', outcome'⟩ := y
  obtain ⟨rfl, houtcome⟩ := Report.mk.inj hx
  cases outcome with
  | error fault =>
    cases outcome' with
    | error fault' =>
      cases houtcome
      rfl
    | ok b => cases houtcome
  | ok a =>
    cases outcome' with
    | error fault' => cases houtcome
    | ok b =>
      obtain ⟨hevents, houtcome'⟩ := Report.mk.inj (hf a b (Except.ok.inj houtcome))
      show Report.mk (events ++ (f a).events) _ = Report.mk (events ++ (g b).events) _
      rw [hevents]
      exact congrArg (Report.mk _) houtcome'

theorem through_bind_same (hf : ∀ a, (f a).through view' = (g a).through view') :
    (x >>= f).through view' = (x >>= g).through view' := by
  have hx : x.through id = x.through id := rfl
  apply through_bind hx
  intro a b hab
  obtain rfl : a = b := hab
  exact hf a

/-- Lists from two operations, one after the other, seen item by item. -/
theorem through_append {x x' y y' : Report (List α)}
    (hx : x.through (List.map view) = x'.through (List.map view))
    (hy : y.through (List.map view) = y'.through (List.map view)) :
    (do return (← x) ++ (← y)).through (List.map view) =
      (do return (← x') ++ (← y')).through (List.map view) := by
  apply through_bind hx
  intro own₁ own₂ hown
  apply through_bind hy
  intro rest₁ rest₂ hrest
  show Report.mk [] (Except.ok ((own₁ ++ rest₁).map view)) =
    Report.mk [] (Except.ok ((own₂ ++ rest₂).map view))
  rw [List.map_append, List.map_append, hown, hrest]

end Report

end ChartStyle
