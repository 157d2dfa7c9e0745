import ChartStyle.Double.Arith
import ChartStyle.Value.Number

/-!
# The order of the doubles

Apart from not-a-number, the comparisons of doubles are comparisons of ranks, and the sign of a
rank is the sign of the value in units (`units_neg_iff`). A number that is at most zero becomes
negative when one is taken from it, however coarse its grid is (`rank_sub_one_neg`). Compared with
a whole number, a double is equal to it exactly when it is that number (`Number.same_whole_iff`).
-/

set_option autoImplicit false

namespace ChartStyle

namespace Double

variable {x y : Double}

theorem less_iff (hx : x ≠ .nan) (hy : y ≠ .nan) : x.less y = true ↔ x.rank < y.rank := by
  simp [less, hx, hy]

theorem less_eq_false_iff (hx : x ≠ .nan) (hy : y ≠ .nan) :
    x.less y = false ↔ y.rank ≤ x.rank := by
  simp [less, hx, hy]

theorem lessEq_iff (hx : x ≠ .nan) (hy : y ≠ .nan) : x.lessEq y = true ↔ x.rank ≤ y.rank := by
  simp [lessEq, hx, hy]

theorem same_iff (hx : x ≠ .nan) (hy : y ≠ .nan) : x.same y = true ↔ x.rank = y.rank := by
  simp [same, hx, hy]

theorem ne_nan_of_isFinite (h : x.isFinite = true) : x ≠ .nan := by
  rintro rfl
  cases h

/-! ## Signs -/

theorem magnitudeAt_pos {place : Nat} (h : 0 < place) : 0 < magnitudeAt place := by
  have hsignificand : 0 < significandAt place := by
    unfold significandAt
    split
    · exact h
    · exact Nat.add_pos_left (by decide) _
  unfold magnitudeAt
  rw [Nat.shiftLeft_eq]
  exact Nat.mul_pos hsignificand (Nat.two_pow_pos _)

theorem magnitudeAt_zero : magnitudeAt 0 = 0 := by decide

/-- A finite number is negative in units exactly when its rank is negative. -/
theorem units_neg_iff (negative : Bool) (place : Fin placeCount) :
    (finite negative place).units < 0 ↔ (finite negative place).rank < 0 := by
  cases negative with
  | false =>
    constructor
    · intro h
      have : (0 : Int) ≤ magnitudeAt place := Int.natCast_nonneg _
      exact absurd h (by simp only [units]; omega)
    · intro h
      exact absurd h (by simp only [rank]; omega)
  | true =>
    by_cases hplace : place.val = 0
    · simp [units, rank, hplace, magnitudeAt_zero]
    · have hpos := magnitudeAt_pos (Nat.pos_of_ne_zero hplace)
      simp only [units, rank]
      omega

theorem units_nonpos_of_rank_nonpos (negative : Bool) (place : Fin placeCount)
    (h : (finite negative place).rank ≤ 0) : (finite negative place).units ≤ 0 := by
  cases negative with
  | false =>
    have hplace : place.val = 0 := by
      simp only [rank] at h
      omega
    simp [units, hplace, magnitudeAt_zero]
  | true =>
    simp only [units]
    omega

/-! ## Small numbers -/

theorem zero_eq : (0 : Double) = signedZero false := by decide +kernel

theorem rank_zero : (0 : Double).rank = 0 := by
  rw [zero_eq]
  rfl

theorem unitsPerOne_pos : 0 < unitsPerOne := by
  rw [unitsPerOne, Nat.one_shiftLeft]
  exact Nat.two_pow_pos 1074

theorem units_neg_one : (-1 : Double).units = -(unitsPerOne : Int) := by decide +kernel

theorem neg_one_eq : ∃ place, (-1 : Double) = finite true place := by
  have hunits := units_neg_one
  have hone := unitsPerOne_pos
  cases h : (-1 : Double) with
  | nan | infinite negative =>
    rw [h] at hunits
    simp only [units] at hunits
    omega
  | finite negative place =>
    cases negative with
    | true => exact ⟨place, rfl⟩
    | false =>
      rw [h] at hunits
      simp only [units] at hunits
      omega

/-- One unit or more rounds to a place beyond zero. -/
theorem rank_nearest_neg {n : Nat} (h : unitsPerOne ≤ n) :
    nearest true n 1 ≠ .nan ∧ (nearest true n 1).rank < 0 := by
  have hn : n ≠ 0 := Nat.ne_of_gt (Nat.lt_of_lt_of_le unitsPerOne_pos h)
  have hlog : 1074 ≤ n.log2 := by
    rw [unitsPerOne, Nat.one_shiftLeft] at h
    exact (Nat.le_log2 hn).2 h
  -- The magnitude lies so far up that its binade alone is a place beyond zero.
  have hshift : 0 < (n.log2 - 52) * binade := Nat.mul_pos (by omega) (by decide)
  unfold nearest
  simp only [Nat.div_one]
  split
  · refine ⟨by simp, ?_⟩
    simp only [rank]
    omega
  · exact ⟨by simp, by decide⟩

/-- One less than a number that is at most zero is negative. -/
theorem rank_sub_one_neg (hx : x ≠ .nan) (h : x.rank ≤ 0) :
    x.sub 1 ≠ .nan ∧ (x.sub 1).rank < 0 := by
  obtain ⟨one, hone⟩ := neg_one_eq
  have hsub : x.sub 1 = x.add (finite true one) := by
    rw [← hone]
    rfl
  rw [hsub]
  cases x with
  | nan => exact absurd rfl hx
  | infinite negative =>
    cases negative with
    | true =>
      show infinite true ≠ .nan ∧ (infinite true).rank < 0
      exact ⟨by simp, by decide⟩
    | false => exact absurd h (by decide)
  | finite negative place =>
    have hunits := units_nonpos_of_rank_nonpos negative place h
    have hminus := units_neg_one
    rw [hone] at hminus
    have hpos := unitsPerOne_pos
    -- The sum in units is negative, and at least as far from zero as one.
    have hneg : (finite negative place).units + (finite true one).units ≠ 0 := by omega
    simp only [add, ofUnits, if_neg hneg]
    rw [decide_eq_true (by omega)]
    exact rank_nearest_neg (by omega)

end Double

/-! ## Numbers -/

namespace Number

variable {x y : Double}

theorem less_real (x y : Double) : (real x).less (real y) = x.less y := rfl

theorem lessEq_real (hx : x ≠ .nan) (hy : y ≠ .nan) :
    (real x).lessEq (real y) = true ↔ x.rank ≤ y.rank := by
  have hx' : (real x).isNan = false := by
    cases x with
    | nan => exact absurd rfl hx
    | infinite negative | finite negative place => rfl
  have hy' : (real y).isNan = false := by
    cases y with
    | nan => exact absurd rfl hy
    | infinite negative | finite negative place => rfl
  simp [lessEq, hx', hy', less_real, Double.less_eq_false_iff hy hx]

/-- A double is less than the whole number zero exactly when its rank is negative. -/
theorem less_zero_iff (hx : x ≠ .nan) : (real x).less (whole 0) = true ↔ x.rank < 0 := by
  cases x with
  | nan => exact absurd rfl hx
  | infinite negative => cases negative <;> decide
  | finite negative place =>
    rw [← Double.units_neg_iff]
    simp [less, lessWhole]

/-- A finite double equals a whole number exactly when it is that number. -/
theorem same_whole_iff (hx : x.isFinite = true) (n : Int) :
    (real x).same (whole n) = true ↔ x.isWhole = true ∧ x.truncate = n := by
  cases x with
  | nan | infinite negative => cases hx
  | finite negative place =>
    have hunits : (real (.finite negative place)).same (whole n) = true ↔
        (Double.finite negative place).units = n * Double.unitsPerOne := by
      simp only [same, lessEq, isNan, less, wholeLess, lessWhole]
      simp only [Bool.not_false, Bool.true_and, Bool.and_eq_true, Bool.not_eq_eq_eq_not,
        Bool.not_true, decide_eq_false_iff_not]
      omega
    have hpos := Double.unitsPerOne_pos
    rw [hunits, Double.isWhole, Double.truncate, beq_iff_eq]
    constructor
    · intro h
      rw [h]
      exact ⟨Int.mul_emod_left _ _, Int.mul_tdiv_cancel _ (by omega)⟩
    · rintro ⟨hmod, htruncate⟩
      rw [← htruncate, Int.tdiv_mul_cancel (Int.dvd_of_emod_eq_zero hmod)]

end Number

end ChartStyle
