import ChartStyle.Double.Shortest
import ChartStyle.Proofs.DoubleOrder

/-!
# Rounding what needs no rounding

A magnitude of the grid rounds to its own place (`nearest_magnitudeAt`). Rounding looks at the value
of a ratio only, not at how it is written (`nearest_scale`), so a decimal may have zeros at its end
(`ofDecimal_shift`). The exact decimal of a double reads as the double (`ofDecimal_exactDecimal`),
and so does a whole number that is on the grid (`ofDecimal_onGrid`), as all up to `2 ^ 53` are
(`exists_magnitudeAt_whole`).
-/

set_option autoImplicit false

namespace ChartStyle

/-! ## Rounding to whole numbers -/

theorem roundHalfEven_mul (q : Nat) {d : Nat} (hd : 0 < d) : roundHalfEven (q * d) d = q := by
  have hmod : q * d % d = 0 := Nat.mul_mod_left q d
  have hdiv : q * d / d = q := Nat.mul_div_cancel q hd
  unfold roundHalfEven
  simp only [hmod, hdiv, Nat.mul_zero]
  exact if_pos hd

theorem roundHalfEven_scale (n d : Nat) {k : Nat} (hk : 0 < k) :
    roundHalfEven (n * k) (d * k) = roundHalfEven n d := by
  have hmod : n * k % (d * k) = n % d * k := Nat.mul_mod_mul_right k n d
  have hdiv : n * k / (d * k) = n / d := Nat.mul_div_mul_right n d hk
  have hassoc : 2 * (n % d * k) = 2 * (n % d) * k := (Nat.mul_assoc _ _ _).symm
  unfold roundHalfEven
  simp only [hmod, hdiv, hassoc, Nat.mul_lt_mul_right hk]

namespace Double

/-- Rounding looks at the value of a ratio, not at how it is written. -/
theorem nearest_scale (negative : Bool) (n d : Nat) {k : Nat} (hk : 0 < k) :
    nearest negative (n * k) (d * k) = nearest negative n d := by
  have hdiv : n * k / (d * k) = n / d := Nat.mul_div_mul_right n d hk
  have hshift (s : Nat) : (d * k) <<< s = d <<< s * k := by
    rw [Nat.shiftLeft_eq, Nat.shiftLeft_eq, Nat.mul_right_comm]
  unfold nearest
  simp only [hdiv, hshift, roundHalfEven_scale _ _ hk]

/-! ## The grid -/

/-- A place is the number of its binade's shift and its significand, which is a full one unless the
shift is none. -/
theorem place_eq (place : Nat) :
    shiftAt place * binade + significandAt place = place ∧
      significandAt place < 2 * binade ∧ (shiftAt place = 0 ∨ binade ≤ significandAt place) := by
  have hbinade : 0 < binade := by decide
  have hsplit := Nat.div_add_mod place binade
  have hmod := Nat.mod_lt place hbinade
  unfold shiftAt significandAt
  split
  case isTrue hlt =>
    rw [Nat.div_eq_of_lt hlt]
    omega
  case isFalse hge =>
    have hone : 1 ≤ place / binade := (Nat.one_le_div_iff hbinade).2 (Nat.not_lt.1 hge)
    have hpred : (place / binade - 1) * binade + binade = binade * (place / binade) := by
      rw [← Nat.succ_mul, Nat.succ_eq_add_one, Nat.sub_add_cancel hone, Nat.mul_comm]
    omega

theorem log2_significand {q : Nat} (hfull : binade ≤ q) (hq : q < 2 * binade) : q.log2 = 52 := by
  have hne : q ≠ 0 := by
    have : 0 < binade := by decide
    omega
  refine (Nat.log2_eq_iff hne).2 ⟨hfull, hq⟩

theorem log2_shiftLeft {q : Nat} (hq : q ≠ 0) (shift : Nat) :
    (q <<< shift).log2 = q.log2 + shift := by
  induction shift with
  | zero => rfl
  | succ shift ih =>
    have hne : q <<< shift ≠ 0 := by
      rw [Nat.shiftLeft_eq]
      exact Nat.mul_ne_zero hq (Nat.ne_of_gt (Nat.two_pow_pos shift))
    rw [Nat.shiftLeft_succ, Nat.log2_two_mul hne, ih, Nat.add_assoc]

/-- A significand with its shift rounds to the place that they number. -/
theorem nearest_significand (negative : Bool) {shift q : Nat} (hq : q < 2 * binade)
    (hfull : shift = 0 ∨ binade ≤ q) (hplace : shift * binade + q < placeCount) :
    nearest negative (q <<< shift) 1 = finite negative ⟨shift * binade + q, hplace⟩ := by
  -- A full significand has 53 binary digits, so as many digits are dropped as zeros were added.
  have hshift : (q <<< shift / 1).log2 - 52 = shift := by
    rw [Nat.div_one]
    cases hfull with
    | inl hzero =>
      subst hzero
      by_cases hq' : binade ≤ q
      · rw [Nat.shiftLeft_zero, log2_significand hq' hq]
      · have hlog : q.log2 ≤ 52 := by
          by_cases hne : q = 0
          · rw [hne]
            decide
          · have := (Nat.log2_lt hne (k := 52)).2 (Nat.not_le.1 hq')
            omega
        rw [Nat.shiftLeft_zero]
        omega
    | inr hle =>
      have hne : q ≠ 0 := by
        have : 0 < binade := by decide
        omega
      rw [log2_shiftLeft hne, log2_significand hle hq, Nat.add_sub_cancel_left]
  have hround : roundHalfEven (q <<< shift) (1 <<< shift) = q := by
    rw [Nat.shiftLeft_eq, Nat.one_shiftLeft]
    exact roundHalfEven_mul q (Nat.two_pow_pos shift)
  unfold nearest
  simp only [hshift, hround]
  exact dif_pos hplace

/-- A magnitude of the grid rounds to its own place. -/
theorem nearest_magnitudeAt (negative : Bool) (place : Fin placeCount) :
    nearest negative (magnitudeAt place) 1 = finite negative place := by
  obtain ⟨heq, hq, hfull⟩ := place_eq place
  have hplace : shiftAt place * binade + significandAt place < placeCount := by
    rw [heq]
    exact place.isLt
  rw [magnitudeAt, nearest_significand negative hq hfull hplace]
  exact congrArg (finite negative) (Fin.ext heq)

/-! ## Whole numbers -/

/-- A full significand with its shift is the magnitude at the place that they number. -/
theorem magnitudeAt_place {shift q : Nat} (hfull : binade ≤ q) (hq : q < 2 * binade) :
    magnitudeAt (shift * binade + q) = q <<< shift := by
  obtain ⟨rest, rfl⟩ := Nat.exists_eq_add_of_le hfull
  have hrest : rest < binade := by omega
  have hplace : shift * binade + (binade + rest) = rest + binade * (shift + 1) := by
    rw [Nat.mul_succ, Nat.mul_comm binade shift]
    omega
  have hdiv : (rest + binade * (shift + 1)) / binade = shift + 1 := by
    rw [Nat.add_mul_div_left _ _ (by decide), Nat.div_eq_of_lt hrest, Nat.zero_add]
  have hmod : (rest + binade * (shift + 1)) % binade = rest := by
    rw [Nat.add_mul_mod_self_left, Nat.mod_eq_of_lt hrest]
  have hlt : ¬ rest + binade * (shift + 1) < binade := by omega
  rw [hplace, magnitudeAt, significandAt, shiftAt, if_neg hlt, hdiv, hmod, Nat.add_sub_cancel]

theorem mul_unitsPerOne (n : Nat) : n * unitsPerOne = n <<< 1074 := by
  rw [unitsPerOne, Nat.one_shiftLeft, Nat.shiftLeft_eq]

/-- The whole numbers up to `2 ^ 53` are on the grid. -/
theorem exists_magnitudeAt_whole {n : Nat} (hn : n ≤ 2 * binade) :
    ∃ place : Fin placeCount, magnitudeAt place = n * unitsPerOne := by
  rw [mul_unitsPerOne]
  by_cases hzero : n = 0
  case pos =>
    subst hzero
    exact ⟨⟨0, by decide⟩, by decide⟩
  case neg =>
  by_cases htop : n = 2 * binade
  case pos =>
    subst htop
    refine ⟨⟨1075 * binade + binade, by decide⟩, ?_⟩
    rw [magnitudeAt_place (Nat.le_refl _) (by decide)]
    decide +kernel
  case neg =>
  -- Moved up to a full significand, the number loses nothing.
  have hlog : n.log2 ≤ 52 := by
    have := (Nat.log2_lt hzero (k := 53)).2 (Nat.lt_of_le_of_ne hn htop)
    omega
  have hmove := log2_shiftLeft hzero (52 - n.log2)
  rw [Nat.add_sub_cancel' hlog] at hmove
  have hne : n <<< (52 - n.log2) ≠ 0 := by
    rw [Nat.shiftLeft_eq]
    exact Nat.mul_ne_zero hzero (Nat.ne_of_gt (Nat.two_pow_pos _))
  obtain ⟨hfull, hq⟩ := (Nat.log2_eq_iff hne).1 hmove
  have hshift : (1022 + n.log2) * binade ≤ 1074 * binade :=
    Nat.mul_le_mul_right binade (Nat.add_le_add_left hlog 1022)
  have hplace : (1022 + n.log2) * binade + n <<< (52 - n.log2) < placeCount :=
    Nat.lt_of_lt_of_le (Nat.add_lt_add_of_le_of_lt hshift hq) (by decide)
  refine ⟨⟨_, hplace⟩, ?_⟩
  rw [magnitudeAt_place hfull hq, ← Nat.shiftLeft_add]
  congr 1
  omega

/-! ## Decimals -/

theorem ofRatio_scale (negative : Bool) (n d : Nat) {k : Nat} (hk : 0 < k) :
    ofRatio negative (n * k) (d * k) = ofRatio negative n d := by
  rw [ofRatio, ofRatio, Nat.mul_right_comm]
  exact nearest_scale negative _ _ hk

theorem length_toDigits_mul_ten {m : Nat} (hm : m ≠ 0) :
    (Nat.toDigits 10 (m * 10)).length = (Nat.toDigits 10 m).length + 1 := by
  have happend := Nat.toDigits_append_toDigits (b := 10) (n := m) (d := 0) (by decide)
    (Nat.pos_of_ne_zero hm) (by decide)
  rw [Nat.add_zero, Nat.mul_comm] at happend
  rw [← happend, List.length_append]
  rfl

/-- The ratio that a decimal stands for: a zero at the end of the digits counts as a power of
ten. -/
theorem ofRatio_mul_ten (negative : Bool) (m : Nat) (exponent : Int) :
    (if 0 ≤ exponent then ofRatio negative (m * 10 * Nat.pow 10 exponent.toNat) 1
      else ofRatio negative (m * 10) (Nat.pow 10 (-exponent).toNat)) =
    if 0 ≤ exponent + 1 then ofRatio negative (m * Nat.pow 10 (exponent + 1).toNat) 1
      else ofRatio negative m (Nat.pow 10 (-(exponent + 1)).toNat) := by
  by_cases hpos : 0 ≤ exponent
  · have hpower : Nat.pow 10 (exponent + 1).toNat = 10 * Nat.pow 10 exponent.toNat := by
      rw [Int.toNat_add hpos (by decide)]
      exact Nat.pow_succ'
    rw [if_pos hpos, if_pos (by omega), hpower, Nat.mul_assoc]
  -- Below zero the ratio has a power of ten for its denominator, which loses one factor.
  · obtain ⟨k, hk⟩ : ∃ k : Nat, exponent = -((k : Int) + 1) := ⟨(-exponent - 1).toNat, by omega⟩
    have hpower : Nat.pow 10 (-exponent).toNat = Nat.pow 10 k * 10 := by
      have hk' : (-exponent).toNat = k + 1 := by omega
      rw [hk']
      exact Nat.pow_succ 10 k
    rw [if_neg hpos, hpower, ofRatio_scale negative _ _ (by decide)]
    cases k with
    | zero =>
      have hzero : exponent + 1 = 0 := by omega
      rw [hzero, if_pos (Int.le_refl 0)]
      exact congrArg (ofRatio negative · 1) (Nat.mul_one m).symm
    | succ k =>
      have hk' : (-(exponent + 1)).toNat = k + 1 := by omega
      rw [if_neg (by omega), hk']

theorem ofDecimal_zero (negative : Bool) (exponent : Int) :
    ofDecimal negative 0 exponent = signedZero negative := by
  unfold ofDecimal
  exact if_pos rfl

theorem ofDecimal_mul_ten (negative : Bool) (m : Nat) (exponent : Int) :
    ofDecimal negative (m * 10) exponent = ofDecimal negative m (exponent + 1) := by
  by_cases hm : m = 0
  · rw [hm, Nat.zero_mul, ofDecimal_zero, ofDecimal_zero]
  have htop : ((Nat.toDigits 10 (m * 10)).length : Int) + exponent =
      (Nat.toDigits 10 m).length + (exponent + 1) := by
    rw [length_toDigits_mul_ten hm]
    omega
  have hm' : m * 10 ≠ 0 := by omega
  unfold ofDecimal
  simp only [htop, if_neg hm, if_neg hm', ofRatio_mul_ten negative m exponent]

/-- Zeros at the end of the digits count as powers of ten. -/
theorem ofDecimal_shift (negative : Bool) (m k : Nat) (exponent : Int) :
    ofDecimal negative (m * Nat.pow 10 k) exponent = ofDecimal negative m (exponent + k) := by
  induction k generalizing exponent with
  | zero =>
    rw [Int.natCast_zero, Int.add_zero]
    exact congrArg (ofDecimal negative · exponent) (Nat.mul_one m)
  | succ k ih =>
    have hpower : m * Nat.pow 10 (k + 1) = m * Nat.pow 10 k * 10 := (Nat.mul_assoc m _ _).symm
    rw [hpower, ofDecimal_mul_ten, ih, Int.natCast_succ]
    congr 1
    omega

theorem shiftLeft_lt {q shift m n : Nat} (hq : q < 1 <<< m) (hshift : shift ≤ n) :
    q <<< shift < 1 <<< (m + n) := by
  rw [Nat.one_shiftLeft] at hq
  rw [Nat.shiftLeft_eq, Nat.one_shiftLeft, Nat.pow_add]
  exact Nat.lt_of_lt_of_le (Nat.mul_lt_mul_of_pos_right hq (Nat.two_pow_pos shift))
    (Nat.mul_le_mul_left _ (Nat.pow_le_pow_right (by decide) hshift))

/-- Every magnitude is less than `2 ^ 1024`. -/
theorem magnitudeAt_lt (place : Fin placeCount) : magnitudeAt place < 1 <<< (53 + 2045) := by
  have hplace : place.val / binade < 2047 := Nat.div_lt_of_lt_mul place.isLt
  have hshift : shiftAt place ≤ 2045 := by
    unfold shiftAt
    omega
  exact shiftLeft_lt (place_eq place).2.1 hshift

theorem shiftLeft_mul_five (k : Nat) : 1 <<< k * Nat.pow 5 k = Nat.pow 10 k := by
  rw [Nat.one_shiftLeft]
  exact (Nat.mul_pow 2 5 k).symm

theorem lt_length_toDigits_mul_five {n k j : Nat} (hn : 0 < n) (hk : k = 3 * j) (hj : 0 < j) :
    2 * j < (Nat.toDigits 10 (n * Nat.pow 5 k)).length := by
  have hfive : 10 ^ (2 * j) ≤ n * Nat.pow 5 k :=
    calc 10 ^ (2 * j) = (10 ^ 2) ^ j := Nat.pow_mul 10 2 j
      _ ≤ (5 ^ 3) ^ j := Nat.pow_le_pow_left (by decide) j
      _ = 5 ^ k := by rw [hk, Nat.pow_mul]
      _ ≤ n * 5 ^ k := Nat.le_mul_of_pos_left _ hn
  refine Nat.lt_of_not_le fun hle => ?_
  have hlt := (Nat.length_toDigits_le_iff (by decide) (by omega)).1 hle
  exact Nat.lt_irrefl _ (Nat.lt_of_lt_of_le hlt hfive)

theorem length_toDigits_mul_five_le {n k m j : Nat} (hn : n < 1 <<< (m + k))
    (hm : 1 <<< m ≤ Nat.pow 10 j) (hj : 0 < j) :
    (Nat.toDigits 10 (n * Nat.pow 5 k)).length ≤ j + k := by
  refine (Nat.length_toDigits_le_iff (by decide) (by omega)).2 ?_
  rw [Nat.shiftLeft_add] at hn
  calc n * Nat.pow 5 k
      < 1 <<< m <<< k * Nat.pow 5 k := Nat.mul_lt_mul_of_pos_right hn (Nat.pow_pos (by decide))
    _ = 1 <<< m * Nat.pow 10 k := by
        rw [← shiftLeft_mul_five, Nat.shiftLeft_eq, Nat.one_shiftLeft k, Nat.mul_assoc]
    _ ≤ 10 ^ j * 10 ^ k := Nat.mul_le_mul_right _ hm
    _ = 10 ^ (j + k) := (Nat.pow_add 10 j k).symm

theorem ofRatio_mul_five (negative : Bool) (n : Nat) {k : Nat} (hk : unitsPerOne = 1 <<< k) :
    ofRatio negative (n * Nat.pow 5 k) (Nat.pow 10 k) = nearest negative n 1 := by
  have hscale := nearest_scale negative n 1 (k := Nat.pow 10 k) (Nat.pow_pos (by decide))
  rw [Nat.one_mul] at hscale
  rw [ofRatio, hk, Nat.mul_assoc, Nat.mul_comm (Nat.pow 5 k), shiftLeft_mul_five, hscale]

theorem exactDecimal_eq (x : Double) {k : Nat} (hk : 1074 = k) :
    x.exactDecimal = ⟨x.units.natAbs * Nat.pow 5 k, -k⟩ := by
  have hexponent : (-1074 : Int) = -k := by omega
  unfold exactDecimal
  rw [hk, hexponent]

theorem natAbs_units (negative : Bool) (place : Fin placeCount) :
    (finite negative place).units.natAbs = magnitudeAt place := by
  cases negative <;> simp [units]

/-- The exact decimal of a magnitude reads as the double. -/
theorem ofDecimal_exactDecimal (negative : Bool) {place : Fin placeCount} (hplace : place.val ≠ 0) :
    ofDecimal negative (finite negative place).exactDecimal.digits
      (finite negative place).exactDecimal.exponent = finite negative place := by
  obtain ⟨k, hk⟩ : ∃ k, 1074 = k := ⟨_, rfl⟩
  rw [exactDecimal_eq _ hk, natAbs_units]
  show ofDecimal negative (magnitudeAt place * Nat.pow 5 k) (-k) = _
  have hpos := magnitudeAt_pos (Nat.pos_of_ne_zero hplace)
  have hlow := lt_length_toDigits_mul_five (k := k) (j := 358) hpos hk.symm (by decide)
  have hlt : magnitudeAt place < 1 <<< (1024 + k) := hk ▸ magnitudeAt_lt place
  have hhigh := length_toDigits_mul_five_le (j := 309) hlt (by decide +kernel) (by decide)
  have hfive : 0 < Nat.pow 5 k := Nat.pow_pos (by decide)
  have hdigits := Nat.mul_ne_zero (Nat.ne_of_gt hpos) (Nat.ne_of_gt hfive)
  have hratio := ofRatio_mul_five negative (magnitudeAt place) (hk ▸ rfl : unitsPerOne = 1 <<< k)
  unfold ofDecimal
  rw [if_neg hdigits, if_neg (by omega), if_neg (by omega), if_neg (by omega), Int.neg_neg,
    Int.toNat_natCast, hratio, nearest_magnitudeAt]

/-- A whole number on the grid lies within the range of the doubles. -/
theorem length_toDigits_onGrid {n : Nat} {place : Fin placeCount}
    (hplace : magnitudeAt place = n * unitsPerOne) : (Nat.toDigits 10 n).length ≤ 309 := by
  obtain ⟨k, hk⟩ : ∃ k, 1074 = k := ⟨_, rfl⟩
  have hunits : unitsPerOne = 1 <<< k := hk ▸ rfl
  have hlt : magnitudeAt place < 1 <<< (1024 + k) := hk ▸ magnitudeAt_lt place
  rw [hplace, hunits, Nat.shiftLeft_add, Nat.shiftLeft_eq (1 <<< 1024) k,
    Nat.one_shiftLeft k] at hlt
  obtain ⟨j, hpos, hj, hbound⟩ : ∃ j, 0 < j ∧ j ≤ 309 ∧ 1 <<< 1024 ≤ Nat.pow 10 j :=
    ⟨309, by decide, by decide, by decide +kernel⟩
  refine Nat.le_trans ((Nat.length_toDigits_le_iff (by decide) hpos).2 ?_) hj
  exact Nat.lt_of_lt_of_le (Nat.lt_of_mul_lt_mul_right hlt) hbound

/-- A whole number on the grid rounds to its own place. -/
theorem ofRatio_onGrid (negative : Bool) {n : Nat} {place : Fin placeCount}
    (hplace : magnitudeAt place = n * unitsPerOne) :
    ofRatio negative n 1 = finite negative place := by
  rw [ofRatio, ← hplace]
  exact nearest_magnitudeAt negative place

/-- A whole number on the grid is read exactly. -/
theorem ofDecimal_onGrid (negative : Bool) {n : Nat} {place : Fin placeCount}
    (hplace : magnitudeAt place = n * unitsPerOne) :
    ofDecimal negative n 0 = finite negative place := by
  have hratio := ofRatio_onGrid negative hplace
  have hlength := length_toDigits_onGrid hplace
  by_cases hzero : n = 0
  · have hfirst : place.val = 0 := by
      apply Nat.eq_zero_of_not_pos
      intro hpos
      have := magnitudeAt_pos hpos
      rw [hplace, hzero, Nat.zero_mul] at this
      exact Nat.lt_irrefl 0 this
    rw [hzero, ofDecimal_zero, signedZero]
    exact congrArg (finite negative) (Fin.ext hfirst.symm)
  -- A whole double has too few digits to be cut off as too large.
  · unfold ofDecimal
    rw [if_neg hzero, if_neg (by omega), if_neg (by omega), if_pos (by decide), ← hratio]
    exact congrArg (ofRatio negative · 1) (Nat.mul_one n)

/-- A double on whose place a whole number lies is this whole number. -/
theorem isWhole_onGrid (negative : Bool) {n : Nat} {place : Fin placeCount}
    (hplace : magnitudeAt place = n * unitsPerOne) :
    (finite negative place).isWhole = true ∧
      (finite negative place).truncate = if negative then -(n : Int) else n := by
  have hunits : (finite negative place).units
      = (if negative then -(n : Int) else n) * unitsPerOne := by
    cases negative with
    | true =>
      show -(magnitudeAt place : Int) = -(n : Int) * unitsPerOne
      rw [hplace, Int.natCast_mul, Int.neg_mul]
    | false =>
      show (magnitudeAt place : Int) = n * unitsPerOne
      rw [hplace, Int.natCast_mul]
  have hpos : (unitsPerOne : Int) ≠ 0 := by
    have := unitsPerOne_pos
    omega
  rw [isWhole, truncate, hunits, beq_iff_eq]
  exact ⟨Int.mul_emod_left _ _, Int.mul_tdiv_cancel _ hpos⟩

/-- A whole double lies on the place of the whole number that it is. -/
theorem onGrid_of_isWhole {negative : Bool} {place : Fin placeCount}
    (h : (finite negative place).isWhole = true) :
    magnitudeAt place = (finite negative place).truncate.natAbs * unitsPerOne := by
  rw [isWhole, beq_iff_eq] at h
  rw [← natAbs_units negative place, truncate]
  have hmul := Int.tdiv_mul_cancel (Int.dvd_of_emod_eq_zero h)
  have habs := congrArg Int.natAbs hmul
  rw [Int.natAbs_mul, Int.natAbs_natCast] at habs
  exact habs.symm

end Double

end ChartStyle
