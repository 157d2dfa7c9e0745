import ChartStyle.Proofs.Outcomes
import Mathlib.Data.List.Forall2

/-!
# Lists that are read item by item

A list is read just when each of its items is (`mapM_eq_ok_iff`). Otherwise it fails as the first of
its items does that cannot be read (`mapM_eq_error_iff`), so it strays from the faults that are
provided for just when an item does that is reached (`strays_mapM_iff`).
-/

set_option autoImplicit false

namespace ChartStyle

variable {α β ε : Type} {f : α → Except ε β} {xs : List α}

theorem mapM_eq_ok_iff {ys : List β} :
    xs.mapM f = .ok ys ↔ List.Forall₂ (fun x y => f x = .ok y) xs ys := by
  induction xs generalizing ys with
  | nil =>
    rw [List.mapM_nil, List.forall₂_nil_left_iff]
    constructor
    · rintro ⟨⟩
      rfl
    · rintro rfl
      rfl
  | cons x xs ih =>
    rw [List.mapM_cons, except_bind_eq_ok_iff, List.forall₂_cons_left_iff]
    constructor
    · rintro ⟨y, hy, h⟩
      obtain ⟨rest, hrest, h⟩ := except_bind_eq_ok_iff.1 h
      cases h
      exact ⟨y, rest, hy, ih.1 hrest, rfl⟩
    · rintro ⟨y, rest, hy, hrest, rfl⟩
      refine ⟨y, hy, ?_⟩
      rw [ih.2 hrest]
      rfl

/-! ## Faults -/

/-- The items before a place are read. -/
def Reaches (f : α → Except ε β) (xs : List α) (place : Nat) : Prop :=
  ∀ earlier < place, ∃ x y, xs[earlier]? = some x ∧ f x = .ok y

theorem reaches_cons_succ_iff {x : α} {place : Nat} :
    Reaches f (x :: xs) (place + 1) ↔ (∃ y, f x = .ok y) ∧ Reaches f xs place := by
  constructor
  · intro h
    refine ⟨?_, fun earlier hearlier => h (earlier + 1) (Nat.succ_lt_succ hearlier)⟩
    obtain ⟨x', y, hx, hy⟩ := h 0 (Nat.succ_pos place)
    cases hx
    exact ⟨y, hy⟩
  · rintro ⟨⟨y, hy⟩, hrest⟩ earlier hearlier
    cases earlier with
    | zero => exact ⟨x, y, rfl, hy⟩
    | succ earlier => exact hrest earlier (Nat.lt_of_succ_lt_succ hearlier)

/-- A list fails as the first of its items does that cannot be read. -/
theorem mapM_eq_error_iff {fault : ε} :
    xs.mapM f = .error fault ↔
      ∃ place x, xs[place]? = some x ∧ Reaches f xs place ∧ f x = .error fault := by
  induction xs with
  | nil =>
    constructor
    · rintro ⟨⟩
    · rintro ⟨place, x, ⟨⟩, -⟩
  | cons first xs ih =>
    rw [List.mapM_cons]
    constructor
    · intro h
      cases hfirst : f first with
      | error other =>
        rw [hfirst] at h
        cases h
        exact ⟨0, first, rfl, fun _ hlt => absurd hlt (Nat.not_lt_zero _), hfirst⟩
      | ok y =>
        cases hrest : xs.mapM f with
        | ok ys =>
          rw [hfirst, hrest] at h
          cases h
        | error other =>
          rw [hfirst, hrest] at h
          cases h
          obtain ⟨place, x, hx, hreach, hfault⟩ := ih.1 hrest
          exact ⟨place + 1, x, hx, reaches_cons_succ_iff.2 ⟨⟨y, hfirst⟩, hreach⟩, hfault⟩
    · rintro ⟨place, x, hx, hreach, hfault⟩
      cases place with
      | zero =>
        cases hx
        rw [hfault]
        rfl
      | succ place =>
        obtain ⟨⟨y, hy⟩, hrest⟩ := reaches_cons_succ_iff.1 hreach
        rw [hy, ih.2 ⟨place, x, hx, hrest, hfault⟩]
        rfl

/-- A list that cannot be read has an item that cannot be read. -/
theorem exists_of_mapM_eq_error {fault : ε} (h : xs.mapM f = .error fault) :
    ∃ x ∈ xs, f x = .error fault := by
  obtain ⟨place, x, hx, -, hfault⟩ := mapM_eq_error_iff.1 h
  exact ⟨x, List.mem_of_getElem? hx, hfault⟩

/-- A list strays from the faults that are provided for just when an item does that is reached. -/
theorem strays_mapM_iff {provided : ε → Prop} :
    Strays provided (xs.mapM f) ↔
      ∃ place x, xs[place]? = some x ∧ Reaches f xs place ∧ Strays provided (f x) := by
  simp only [Strays, mapM_eq_error_iff]
  constructor
  · rintro ⟨fault, ⟨place, x, hx, hreach, hfault⟩, hprovided⟩
    exact ⟨place, x, hx, hreach, fault, hfault, hprovided⟩
  · rintro ⟨place, x, hx, hreach, fault, hfault, hprovided⟩
    exact ⟨fault, ⟨place, x, hx, hreach, hfault⟩, hprovided⟩

/-! ## What was read -/

/-- What is read of a list comes of its items. -/
theorem exists_mem_of_forall₂ {R : α → β → Prop} {ys : List β}
    (h : List.Forall₂ R xs ys) {y : β} (hy : y ∈ ys) : ∃ x ∈ xs, R x y := by
  induction h with
  | nil => cases hy
  | cons hxy _ ih =>
    rcases List.mem_cons.1 hy with rfl | hy
    · exact ⟨_, List.mem_cons_self, hxy⟩
    · obtain ⟨x, hx, hR⟩ := ih hy
      exact ⟨x, List.mem_cons_of_mem _ hx, hR⟩

end ChartStyle
