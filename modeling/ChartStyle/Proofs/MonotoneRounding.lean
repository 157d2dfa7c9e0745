import ChartStyle.Double.Arith
import ChartStyle.Proofs.ExactRounding
import Mathlib.Data.Nat.Log

/-!
# Rounding keeps the order

Of two ratios the greater never rounds to a lesser place (`placeOf_mono`). What lies below a
magnitude of the grid rounds to that magnitude or to one below it, so no rounding leads out of a
range from zero to a whole bound (`nearest_isWithin`). The remainder by a whole number lies in such
a range, halves and decimals of a number from the range stay in it, and a number from it can be
added to any finite number (`floorMod_isWithin`, `IsWithin.half`, `IsWithin.roundPlaces`,
`isFinite_add`).
-/

set_option autoImplicit false

namespace ChartStyle

/-! ## Whole numbers -/

theorem roundHalfEven_mono {n m : Nat} (d : Nat) (h : n ≤ m) :
    roundHalfEven n d ≤ roundHalfEven m d := by
  have hsplit := Nat.div_add_mod n d
  have hsplit' := Nat.div_add_mod m d
  have hquotient : n / d ≤ m / d := Nat.div_le_div_right h
  have hparity := Nat.mod_lt (n / d) (show 0 < 2 by decide)
  unfold roundHalfEven
  rcases Nat.lt_or_eq_of_le hquotient with hlt | heq
  -- The lesser one is at most rounded up to the quotient of the greater one.
  · dsimp only
    split_ifs <;> omega
  · rw [heq] at hsplit hparity ⊢
    dsimp only
    split_ifs <;> omega

theorem le_roundHalfEven {k n d : Nat} (hd : 0 < d) (h : k * d ≤ n) : k ≤ roundHalfEven n d :=
  calc k = roundHalfEven (k * d) d := (roundHalfEven_mul k hd).symm
    _ ≤ roundHalfEven n d := roundHalfEven_mono d h

theorem roundHalfEven_le {k n d : Nat} (hd : 0 < d) (h : n ≤ k * d) : roundHalfEven n d ≤ k :=
  calc roundHalfEven n d ≤ roundHalfEven (k * d) d := roundHalfEven_mono d h
    _ = k := roundHalfEven_mul k hd

namespace Double

/-! ## Places -/

/-- The place of the magnitude that is nearest to `n / d` units. It may lie beyond the grid. -/
def placeOf (n d : Nat) : Nat :=
  let shift := (n / d).log2 - 52
  shift * binade + roundHalfEven n (d <<< shift)

theorem nearest_of_lt (negative : Bool) {n d : Nat} (h : placeOf n d < placeCount) :
    nearest negative n d = finite negative ⟨placeOf n d, h⟩ := dif_pos h

theorem placeOf_of_nearest {negative : Bool} {n d : Nat} {place : Fin placeCount}
    (h : nearest negative n d = finite negative place) : placeOf n d = place := by
  by_cases hlt : placeOf n d < placeCount
  · rw [nearest_of_lt negative hlt] at h
    exact congrArg Fin.val (finite.inj h).2
  · have hinfinite : nearest negative n d = infinite negative := dif_neg hlt
    rw [hinfinite] at h
    cases h

theorem placeOf_magnitudeAt (place : Fin placeCount) {d : Nat} (hd : 0 < d) :
    placeOf (magnitudeAt place * d) d = place := by
  have hscale := nearest_scale false (magnitudeAt place) 1 hd
  rw [Nat.one_mul, nearest_magnitudeAt] at hscale
  exact placeOf_of_nearest hscale

theorem shiftLeft_pos {d : Nat} (hd : 0 < d) (shift : Nat) : 0 < d <<< shift := by
  rw [Nat.shiftLeft_eq]
  exact Nat.mul_pos hd (Nat.two_pow_pos shift)

theorem mul_shiftLeft (k d shift : Nat) : k * d <<< shift = k <<< shift * d := by
  rw [Nat.shiftLeft_eq, Nat.shiftLeft_eq, Nat.mul_comm d, Nat.mul_assoc]

/-- No significand exceeds the one from which the next binade starts. -/
theorem significand_le {n d shift : Nat} (hd : 0 < d) (hshift : (n / d).log2 - 52 = shift) :
    roundHalfEven n (d <<< shift) ≤ 2 * binade := by
  apply roundHalfEven_le (shiftLeft_pos hd shift)
  have hpower : n / d < 2 ^ (53 + shift) :=
    calc n / d < 2 ^ ((n / d).log2 + 1) := Nat.lt_log2_self
      _ ≤ 2 ^ (53 + shift) := Nat.pow_le_pow_right (by decide) (by omega)
  have hbound := (Nat.div_lt_iff_lt_mul hd).1 hpower
  have hbinade : 2 * binade = 2 ^ 53 := by decide
  rw [mul_shiftLeft, hbinade, Nat.shiftLeft_eq, ← Nat.pow_add]
  exact Nat.le_of_lt hbound

/-- A significand that is shifted is a full one. -/
theorem le_significand {n d shift : Nat} (hd : 0 < d) (hshift : (n / d).log2 - 52 = shift)
    (hpos : 0 < shift) : binade ≤ roundHalfEven n (d <<< shift) := by
  apply le_roundHalfEven (shiftLeft_pos hd shift)
  have hlog : (n / d).log2 = 52 + shift := by omega
  have hne : n / d ≠ 0 := by
    intro hzero
    rw [hzero, Nat.log2_zero] at hlog
    omega
  have hpower : 2 ^ (52 + shift) ≤ n / d := by
    rw [← hlog]
    exact Nat.log2_self_le hne
  have hbinade : binade = 2 ^ 52 := by decide
  rw [mul_shiftLeft, hbinade, Nat.shiftLeft_eq, ← Nat.pow_add]
  exact (Nat.le_div_iff_mul_le hd).1 hpower

/-- Of two ratios the greater never rounds to a lesser place. -/
theorem placeOf_mono {n m d : Nat} (hd : 0 < d) (h : n ≤ m) : placeOf n d ≤ placeOf m d := by
  have hlog : (n / d).log2 ≤ (m / d).log2 := by
    rw [Nat.log2_eq_log_two, Nat.log2_eq_log_two]
    exact Nat.log_mono_right (Nat.div_le_div_right h)
  unfold placeOf
  dsimp only
  generalize hs : (n / d).log2 - 52 = s
  generalize ht : (m / d).log2 - 52 = t
  rcases Nat.lt_or_eq_of_le (show s ≤ t by omega) with hlt | rfl
  -- With a greater shift, even the least significand lies beyond all of a lesser shift.
  · have hupper := significand_le hd hs
    have hlower := le_significand hd ht (Nat.zero_lt_of_lt hlt)
    have hnext : (s + 1) * binade ≤ t * binade := Nat.mul_le_mul_right binade hlt
    rw [Nat.add_mul, Nat.one_mul] at hnext
    omega
  · exact Nat.add_le_add_left (roundHalfEven_mono _ h) _

theorem magnitudeAt_le_iff {place place' : Fin placeCount} :
    magnitudeAt place ≤ magnitudeAt place' ↔ place ≤ place' := by
  have hplaces {p q : Fin placeCount} (h : magnitudeAt p ≤ magnitudeAt q) : p ≤ q := by
    have hmono := placeOf_mono (d := 1) Nat.one_pos (Nat.mul_le_mul_right 1 h)
    rw [placeOf_magnitudeAt p Nat.one_pos, placeOf_magnitudeAt q Nat.one_pos] at hmono
    exact hmono
  constructor
  · exact hplaces
  · intro h
    rcases Nat.le_total (magnitudeAt place) (magnitudeAt place') with hle | hle
    · exact hle
    · obtain rfl : place = place' := Fin.le_antisymm h (hplaces hle)
      exact hle

/-- What is at most a magnitude of the grid rounds to a place that is not above it. -/
theorem exists_nearest_le (negative : Bool) {n d : Nat} {place : Fin placeCount} (hd : 0 < d)
    (h : n ≤ magnitudeAt place * d) :
    ∃ nearer, nearest negative n d = finite negative nearer ∧ nearer ≤ place := by
  have hplace := placeOf_mono hd h
  rw [placeOf_magnitudeAt place hd] at hplace
  exact ⟨_, nearest_of_lt negative (Nat.lt_of_le_of_lt hplace place.isLt), hplace⟩

/-! ## Numbers between zero and a bound -/

/-- A number from zero to a whole bound. -/
def IsWithin (x : Double) (bound : Nat) : Prop :=
  ∃ place : Fin placeCount, x = finite false place ∧ magnitudeAt place ≤ bound * unitsPerOne

variable {x y : Double} {bound : Nat}

theorem IsWithin.isFinite (h : x.IsWithin bound) : x.isFinite = true := by
  obtain ⟨place, rfl, -⟩ := h
  rfl

/-- A whole number that is on the grid stands for itself. -/
theorem exists_ofNat_eq {n : Nat} (hn : n ≤ 2 * binade) :
    ∃ place, ofNat n = finite false place ∧ magnitudeAt place = n * unitsPerOne := by
  obtain ⟨place, hplace⟩ := exists_magnitudeAt_whole hn
  exact ⟨place, ofRatio_onGrid false hplace, hplace⟩

theorem ofNat_isWithin {n : Nat} (hn : n ≤ bound) (hbound : bound ≤ 2 * binade) :
    (ofNat n).IsWithin bound := by
  obtain ⟨place, hx, hplace⟩ := exists_ofNat_eq (Nat.le_trans hn hbound)
  refine ⟨place, hx, ?_⟩
  rw [hplace]
  exact Nat.mul_le_mul_right unitsPerOne hn

theorem nearest_isWithin {n d : Nat} (hd : 0 < d) (hbound : bound ≤ 2 * binade)
    (h : n ≤ bound * unitsPerOne * d) : (nearest false n d).IsWithin bound := by
  obtain ⟨place, hplace⟩ := exists_magnitudeAt_whole hbound
  rw [← hplace] at h
  obtain ⟨nearer, hnearest, hle⟩ := exists_nearest_le false hd h
  refine ⟨nearer, hnearest, ?_⟩
  rw [← hplace]
  exact magnitudeAt_le_iff.2 hle

/-- The remainder of a finite number by a whole one. -/
theorem floorMod_isWithin (hx : x.isFinite = true) (hpos : 0 < bound)
    (hbound : bound ≤ 2 * binade) : (x.floorMod bound).IsWithin bound := by
  have hmodulus : 0 < bound * unitsPerOne := Nat.mul_pos hpos unitsPerOne_pos
  have hnonneg : 0 ≤ x.units % (bound * unitsPerOne : Nat) :=
    Int.emod_nonneg _ (by omega)
  have hlt : x.units % (bound * unitsPerOne : Nat) < (bound * unitsPerOne : Nat) :=
    Int.emod_lt_of_pos _ (by omega)
  have hsign : (if x.units % (bound * unitsPerOne : Nat) = 0 then false
      else decide (x.units % (bound * unitsPerOne : Nat) < 0)) = false := by
    split
    · rfl
    · exact decide_eq_false (by omega)
  unfold floorMod ofUnits
  rw [if_pos hx, hsign]
  apply nearest_isWithin Nat.one_pos hbound
  omega

theorem IsWithin.half (h : x.IsWithin bound) (hbound : bound ≤ 2 * binade) :
    (x / 2).IsWithin bound := by
  obtain ⟨place, rfl, hplace⟩ := h
  obtain ⟨two, htwo, hunits⟩ := exists_ofNat_eq (n := 2) (by decide)
  have hnonzero : (finite false two).isZero = false := by
    rw [← htwo]
    decide +kernel
  have hdiv : finite false place / 2 =
      nearest false (magnitudeAt place * unitsPerOne) (2 * unitsPerOne) := by
    show (finite false place).div (ofNat 2) = _
    rw [htwo]
    simp only [div, hnonzero, natAbs_units, hunits, Bool.false_eq_true, if_false,
      bne_self_eq_false]
  rw [hdiv]
  apply nearest_isWithin (Nat.mul_pos (by decide) unitsPerOne_pos) hbound
  calc magnitudeAt place * unitsPerOne
      ≤ bound * unitsPerOne * unitsPerOne := Nat.mul_le_mul_right _ hplace
    _ ≤ bound * unitsPerOne * (2 * unitsPerOne) :=
        Nat.mul_le_mul_left _ (Nat.le_mul_of_pos_left unitsPerOne (by decide))

theorem IsWithin.roundPlaces (h : x.IsWithin bound) (hbound : bound ≤ 2 * binade) (places : Nat) :
    (x.roundPlaces places).IsWithin bound := by
  obtain ⟨place, rfl, hplace⟩ := h
  have hten : 0 < Nat.pow 10 places := Nat.pow_pos (by decide)
  show (nearest false _ _).IsWithin bound
  rw [natAbs_units]
  apply nearest_isWithin hten hbound
  -- The decimal that comes nearest is not above the bound either.
  have hdecimal : roundHalfEven (magnitudeAt place * Nat.pow 10 places) unitsPerOne ≤
      bound * Nat.pow 10 places := by
    apply roundHalfEven_le unitsPerOne_pos
    calc magnitudeAt place * Nat.pow 10 places
        ≤ bound * unitsPerOne * Nat.pow 10 places := Nat.mul_le_mul_right _ hplace
      _ = bound * Nat.pow 10 places * unitsPerOne := Nat.mul_right_comm _ _ _
  calc roundHalfEven (magnitudeAt place * Nat.pow 10 places) unitsPerOne * unitsPerOne
      ≤ bound * Nat.pow 10 places * unitsPerOne := Nat.mul_le_mul_right _ hdecimal
    _ = bound * unitsPerOne * Nat.pow 10 places := Nat.mul_right_comm _ _ _

/-- The last place of the grid. -/
def lastPlace : Fin placeCount := ⟨placeCount - 1, by decide⟩

theorem natAbs_units_le (x : Double) : x.units.natAbs ≤ magnitudeAt lastPlace := by
  cases x with
  | nan | infinite negative => exact Nat.zero_le _
  | finite negative place =>
    rw [natAbs_units]
    exact magnitudeAt_le_iff.2 (Nat.le_pred_of_lt place.isLt)

/-- The grid is so coarse at its end that what is added there is rounded away. -/
theorem placeOf_last_add : placeOf (magnitudeAt lastPlace + 2 * binade * unitsPerOne) 1 =
    lastPlace := by
  decide +kernel

theorem isFinite_add (hx : x.isFinite = true) (hy : y.IsWithin bound)
    (hbound : bound ≤ 2 * binade) : (x + y).isFinite = true := by
  obtain ⟨place, rfl, hplace⟩ := hy
  cases x with
  | nan | infinite negative => cases hx
  | finite negative own =>
    have hown := natAbs_units_le (finite negative own)
    have hother := Nat.mul_le_mul_right unitsPerOne hbound
    have hsum : ((finite negative own).units + (finite false place).units).natAbs ≤
        magnitudeAt lastPlace + 2 * binade * unitsPerOne := by
      have habs := Int.natAbs_add_le (finite negative own).units (finite false place).units
      rw [natAbs_units false place] at habs
      omega
    have hlt := placeOf_mono Nat.one_pos hsum
    rw [placeOf_last_add] at hlt
    show (nearest _ _ 1).isFinite = true
    rw [nearest_of_lt _ (Nat.lt_of_le_of_lt hlt lastPlace.isLt)]
    rfl

end Double

end ChartStyle
