import ChartStyle.Renderer.Evaluate

/-!
# Attributes that are finite numbers

A value that is a finite number for the renderer is the same finite number when it is read as an
attribute (`AttributeSet.getReal_of_finite`), and it is known. An attribute that is absent, or
known to the renderer only, is not.
-/

set_option autoImplicit false

namespace ChartStyle

/-! ## Finite numbers -/

theorem Double.isFinite_of_ofInt? {n : Int} {x : Double} (h : Double.ofInt? n = some x) :
    x.isFinite = true := by
  simp only [Double.ofInt?, Option.ite_none_right_eq_some, Option.some.injEq] at h
  obtain ⟨hfinite, rfl⟩ := h
  exact hfinite

theorem Value.finite?_real_iff {x y : Double} :
    (Value.real y).finite? = some x ↔ y.isFinite = true ∧ y = x := by
  simp only [Value.finite?, Option.ite_none_right_eq_some, Option.some.injEq]

theorem Value.isFinite_of_finite? {v : Value} {x : Double} (h : v.finite? = some x) :
    x.isFinite = true := by
  cases v with
  | int n => exact Double.isFinite_of_ofInt? h
  | real y =>
    obtain ⟨hfinite, rfl⟩ := Value.finite?_real_iff.1 h
    exact hfinite
  | null | bool b | text s | list items | map entries | perFeature => cases h

theorem Value.toDouble_of_finite? {v : Value} {x : Double} (h : v.finite? = some x) :
    v.toDouble = .ok x := by
  cases v with
  | int n =>
    simp only [Value.finite?] at h
    simp only [Value.toDouble, h]
  | real y =>
    obtain ⟨-, rfl⟩ := Value.finite?_real_iff.1 h
    rfl
  | null | bool b | text s | list items | map entries | perFeature => cases h

/-! ## Reading -/

namespace AttributeSet

variable {a : AttributeSet} {code : String}

theorem isKnown_of_finite {v : Value} {x : Double} (hv : a.find? code = some v)
    (hx : v.finite? = some x) : a.isKnown code = true ∧ a.isPerFeature code = false := by
  rw [isKnown, has, isPerFeature, hv]
  cases v with
  | int n | real y => exact ⟨rfl, rfl⟩
  -- The other values are no numbers.
  | null | bool b | text s | list items | map entries | perFeature => cases hx

theorem isKnown_of_absent (h : a.find? code = none) :
    a.isKnown code = false ∧ a.isPerFeature code = false := by
  rw [isKnown, has, isPerFeature, h]
  exact ⟨rfl, rfl⟩

theorem isPerFeature_of_perFeature (h : a.find? code = some .perFeature) :
    a.isKnown code = false ∧ a.isPerFeature code = true := by
  rw [isKnown, has, isPerFeature, h]
  exact ⟨rfl, rfl⟩

theorem getReal_of_finite {v : Value} {x : Double} (hv : a.find? code = some v)
    (hx : v.finite? = some x) (standIn : Value) :
    a.getReal code standIn = pure (some x) := by
  have hknown : a.known? code = some v := by
    rw [known?, if_pos (isKnown_of_finite hv hx).1, hv]
  simp only [getReal, hknown, Value.toDouble_of_finite? hx]
  exact if_pos (Value.isFinite_of_finite? hx)

end AttributeSet

end ChartStyle
