import ChartStyle.Report

/-!
# Outcomes of composed operations

When a sequence of operations succeeds, and what it gives then: each operation before has
succeeded (`except_bind_eq_ok_iff`, `Report.outcome_bind_eq_ok_iff`). A sequence that fails does so
with the fault of its first operation that fails (`except_bind_eq_error_iff`). Where only faults of
some kind are provided for, a sequence strays just when one of its operations does that is reached
(`strays_bind_iff`).
-/

set_option autoImplicit false

namespace ChartStyle

variable {α β ε : Type}

theorem except_bind_eq_ok_iff {x : Except ε α} {f : α → Except ε β} {b : β} :
    x >>= f = .ok b ↔ ∃ a, x = .ok a ∧ f a = .ok b := by
  cases x with
  | error fault =>
    constructor
    · intro h
      cases h
    · rintro ⟨a, h, -⟩
      cases h
  | ok a =>
    constructor
    · intro h
      exact ⟨a, rfl, h⟩
    · rintro ⟨a', h, hf⟩
      cases h
      exact hf

theorem except_bind_eq_error_iff {x : Except ε α} {f : α → Except ε β} {fault : ε} :
    x >>= f = .error fault ↔ x = .error fault ∨ ∃ a, x = .ok a ∧ f a = .error fault := by
  cases x with
  | error other =>
    constructor
    · intro h
      cases h
      exact .inl rfl
    · rintro (h | ⟨a, h, -⟩)
      · cases h
        rfl
      · cases h
  | ok a =>
    constructor
    · intro h
      exact .inr ⟨a, rfl, h⟩
    · rintro (h | ⟨a', h, hf⟩)
      · cases h
      · cases h
        exact hf

/-! ## Faults that are not provided for -/

section Strays

variable {provided : ε → Prop}

/-- The outcome is a fault of another kind than those that are provided for. -/
def Strays (provided : ε → Prop) (outcome : Except ε α) : Prop :=
  ∃ fault, outcome = .error fault ∧ ¬ provided fault

@[simp]
theorem not_strays_ok {a : α} : ¬ Strays provided (.ok a : Except ε α) := by
  rintro ⟨fault, ⟨⟩, -⟩

theorem not_strays_pure {a : α} : ¬ Strays provided (pure a : Except ε α) := not_strays_ok

@[simp]
theorem strays_error_iff {fault : ε} :
    Strays provided (.error fault : Except ε α) ↔ ¬ provided fault := by
  constructor
  · rintro ⟨_, ⟨⟩, hfault⟩
    exact hfault
  · exact fun hfault => ⟨fault, rfl, hfault⟩

theorem strays_bind_iff {x : Except ε α} {f : α → Except ε β} :
    Strays provided (x >>= f) ↔ Strays provided x ∨ ∃ a, x = .ok a ∧ Strays provided (f a) := by
  simp only [Strays, except_bind_eq_error_iff]
  constructor
  · rintro ⟨fault, hx | ⟨a, hx, hfault⟩, hprovided⟩
    · exact .inl ⟨fault, hx, hprovided⟩
    · exact .inr ⟨a, hx, fault, hfault, hprovided⟩
  · rintro (⟨fault, hx, hprovided⟩ | ⟨a, hx, fault, hfault, hprovided⟩)
    · exact ⟨fault, .inl hx, hprovided⟩
    · exact ⟨fault, .inr ⟨a, hx, hfault⟩, hprovided⟩

theorem not_strays_iff {outcome : Except ε α} :
    ¬ Strays provided outcome ↔
      (∃ a, outcome = .ok a) ∨ ∃ fault, outcome = .error fault ∧ provided fault := by
  cases outcome <;> simp

/-- An operation whose results are all good has a good one or a fault that is provided for, just
when it does not stray. -/
theorem settles_iff {outcome : Except ε α} {good : α → Prop}
    (hgood : ∀ a, outcome = .ok a → good a) :
    ((∃ a, outcome = .ok a ∧ good a) ∨ ∃ fault, outcome = .error fault ∧ provided fault) ↔
      ¬ Strays provided outcome := by
  rw [not_strays_iff]
  refine or_congr_left (exists_congr fun a => ?_)
  exact and_iff_left_of_imp (hgood a)

end Strays

namespace Report

theorem bind_of_ok {x : Report α} {a : α} (h : x.outcome = .ok a) (f : α → Report β) :
    x >>= f = ⟨x.events ++ (f a).events, (f a).outcome⟩ := by
  show andThen x f = _
  unfold andThen
  rw [h]

theorem bind_of_error {x : Report α} {fault : Fault} (h : x.outcome = .error fault)
    (f : α → Report β) : x >>= f = ⟨x.events, .error fault⟩ := by
  show andThen x f = _
  unfold andThen
  rw [h]

theorem outcome_bind_eq_ok_iff {x : Report α} {f : α → Report β} {b : β} :
    (x >>= f).outcome = .ok b ↔ ∃ a, x.outcome = .ok a ∧ (f a).outcome = .ok b := by
  cases h : x.outcome with
  | error fault =>
    rw [bind_of_error h]
    constructor
    · intro hb
      cases hb
    · rintro ⟨a, ha, -⟩
      cases ha
  | ok a =>
    rw [bind_of_ok h]
    constructor
    · intro hb
      exact ⟨a, rfl, hb⟩
    · rintro ⟨a', ha, hb⟩
      cases ha
      exact hb

end Report

end ChartStyle
