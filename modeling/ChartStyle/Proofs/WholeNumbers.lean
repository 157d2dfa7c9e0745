import ChartStyle.Proofs.AttributeReading
import ChartStyle.Proofs.NumberText

/-!
# Whole numbers as doubles

The double nearest to a whole number is whole, or an infinity. Up to `2 ^ 53` it is the number itself
(`Double.truncate_ofInt`); what lies beyond rounds to what lies beyond (`Double.isWhole_of_ofInt?`),
so no large number is taken for a small one (`Double.truncate_eq_iff_of_ofInt?`). The decimal text
of a whole number is read as this double, however many digits it has (`readDouble?_toString_eq`),
and no two whole numbers share a text (`toString_inj`).
-/

set_option autoImplicit false

namespace ChartStyle

namespace Double

theorem ne_zero_of_binade_le {m : Nat} (hm : binade ≤ m) : m ≠ 0 := by
  rintro rfl
  exact absurd hm (by decide)

theorem ofInt_eq (n : Int) : ofInt n = ofRatio (decide (n < 0)) n.natAbs 1 := by
  cases n with
  | ofNat m => rfl
  | negSucc m =>
    rw [decide_eq_true (Int.negSucc_lt_zero m)]
    rfl

theorem ofInt_cases (n : Int) :
    (∃ negative, ofInt n = infinite negative ∧ ofInt? n = none) ∨
      ∃ negative place, ofInt n = finite negative place ∧
        ofInt? n = some (finite negative place) := by
  have hcases : (∃ negative, ofInt n = infinite negative) ∨
      ∃ negative place, ofInt n = finite negative place := by
    rw [ofInt_eq, ofRatio, nearest]
    split
    · exact .inr ⟨_, _, rfl⟩
    · exact .inl ⟨_, rfl⟩
  unfold ofInt?
  obtain ⟨negative, h⟩ | ⟨negative, place, h⟩ := hcases
  · exact .inl ⟨negative, h, by rw [h]; rfl⟩
  · exact .inr ⟨negative, place, h, by rw [h]; rfl⟩

/-! ## Small numbers -/

theorem signed_natAbs (n : Int) : (if decide (n < 0) then -(n.natAbs : Int) else n.natAbs) = n := by
  by_cases hn : n < 0
  · rw [decide_eq_true hn, if_pos rfl]
    omega
  · rw [decide_eq_false hn, if_neg Bool.false_ne_true]
    omega

/-- The whole numbers up to `2 ^ 53` are doubles. -/
theorem truncate_ofInt {n : Int} (hn : n.natAbs ≤ 2 * binade) :
    (ofInt n).isFinite = true ∧ (ofInt n).isWhole = true ∧ (ofInt n).truncate = n := by
  obtain ⟨place, hplace⟩ := exists_magnitudeAt_whole hn
  obtain ⟨hwhole, htruncate⟩ := isWhole_onGrid (decide (n < 0)) hplace
  rw [ofInt_eq, ofRatio_onGrid _ hplace]
  exact ⟨rfl, hwhole, htruncate.trans (signed_natAbs n)⟩

/-! ## Large numbers -/

/-- A significand that has been rounded up to the first of the next binade is the same magnitude
there. -/
theorem magnitudeAt_place_of_le {shift q : Nat} (hfull : binade ≤ q) (hq : q ≤ 2 * binade) :
    magnitudeAt (shift * binade + q) = q <<< shift := by
  cases Nat.lt_or_eq_of_le hq with
  | inl hlt => exact magnitudeAt_place hfull hlt
  | inr heq =>
    have hnext : shift * binade + 2 * binade = (shift + 1) * binade + binade := by
      rw [Nat.add_mul, Nat.one_mul]
      omega
    rw [heq, hnext, magnitudeAt_place (Nat.le_refl _) (by decide), Nat.shiftLeft_eq,
      Nat.shiftLeft_eq, Nat.pow_succ, Nat.mul_comm _ 2, ← Nat.mul_assoc, Nat.mul_comm binade 2]

/-- A number of at least 53 binary digits rounds to a shifted significand, unless it has no place. -/
theorem exists_magnitudeAt_nearest {n : Nat} (hn : 52 ≤ n.log2) :
    ∃ q, binade ≤ q ∧ magnitudeAt ((n.log2 - 52) * binade + q) = q <<< (n.log2 - 52) ∧
      ∀ negative, nearest negative n 1 =
        if h : (n.log2 - 52) * binade + q < placeCount then finite negative ⟨_, h⟩
        else infinite negative := by
  have hne : n ≠ 0 := by
    rintro rfl
    exact absurd hn (by decide)
  obtain ⟨shift, hshift⟩ : ∃ shift, n.log2 = 52 + shift := Nat.exists_eq_add_of_le hn
  obtain ⟨hlow, hhigh⟩ := (Nat.log2_eq_iff hne).1 hshift
  have hsub : n.log2 - 52 = shift := by omega
  have hpower : 2 ^ (52 + shift) = binade * 2 ^ shift := Nat.pow_add 2 52 shift
  have hpower' : 2 ^ (52 + shift + 1) = 2 ^ shift * (2 * binade) := by
    rw [Nat.pow_succ, hpower, Nat.mul_comm binade, Nat.mul_assoc, Nat.mul_comm binade]
  rw [hpower] at hlow
  rw [hpower'] at hhigh
  -- Cut off, the significand is a full one, and rounding adds one at most.
  have hfull : binade ≤ n / 2 ^ shift := (Nat.le_div_iff_mul_le (Nat.two_pow_pos shift)).2 hlow
  have hlt : n / 2 ^ shift < 2 * binade := Nat.div_lt_of_lt_mul hhigh
  have hround : binade ≤ roundHalfEven n (2 ^ shift) ∧
      roundHalfEven n (2 ^ shift) ≤ 2 * binade := by
    cases roundHalfEven_eq n (2 ^ shift) with
    | inl heq | inr heq => omega
  refine ⟨roundHalfEven n (2 ^ shift), hround.1, ?_, fun negative => ?_⟩
  · rw [hsub, magnitudeAt_place_of_le hround.1 hround.2]
  · unfold nearest
    simp only [Nat.div_one, hsub, Nat.one_shiftLeft]

/-- The double nearest to a large whole number, by its significand, unless it has no place. -/
theorem exists_ofRatio_large {m : Nat} (hm : 2 * binade ≤ m) :
    ∃ q, binade ≤ q ∧
      magnitudeAt ((m.log2 + 1022) * binade + q) = q <<< (m.log2 - 52) * unitsPerOne ∧
      ∀ negative, ofRatio negative m 1 =
        if h : (m.log2 + 1022) * binade + q < placeCount then finite negative ⟨_, h⟩
        else infinite negative := by
  have hne : m ≠ 0 := ne_zero_of_binade_le (Nat.le_trans (by decide) hm)
  have hlog : 53 ≤ m.log2 := (Nat.le_log2 hne).2 hm
  have hshift : (m <<< 1074).log2 - 52 = m.log2 + 1022 := by
    rw [log2_shiftLeft hne]
    omega
  obtain ⟨q, hq, hmagnitude, hnearest⟩ :=
    exists_magnitudeAt_nearest (n := m <<< 1074) (by omega)
  rw [hshift] at hmagnitude hnearest
  refine ⟨q, hq, ?_, fun negative => ?_⟩
  · have hsplit : m.log2 + 1022 = m.log2 - 52 + 1074 := by omega
    rw [hmagnitude, mul_unitsPerOne, ← Nat.shiftLeft_add, hsplit]
  · rw [ofRatio, mul_unitsPerOne, hnearest]

/-- Beyond `2 ^ 1024` the nearest double is an infinity. -/
theorem ofRatio_eq_infinite (negative : Bool) {m : Nat} (hm : 1 <<< 1024 ≤ m) :
    ofRatio negative m 1 = infinite negative := by
  have hlarge : 2 * binade ≤ m := Nat.le_trans (by decide +kernel) hm
  have hne : m ≠ 0 := ne_zero_of_binade_le (Nat.le_trans (by decide) hlarge)
  rw [Nat.one_shiftLeft] at hm
  have hlog : 1024 ≤ m.log2 := (Nat.le_log2 hne).2 hm
  obtain ⟨q, hq, -, hratio⟩ := exists_ofRatio_large hlarge
  rw [hratio, dif_neg]
  have hshift : (1024 + 1022) * binade ≤ (m.log2 + 1022) * binade :=
    Nat.mul_le_mul_right binade (Nat.add_le_add_right hlog 1022)
  have hcount : placeCount = (1024 + 1022) * binade + binade := by decide
  omega

/-- The double nearest to a whole number is this number unless both lie beyond `2 ^ 53`. -/
theorem isWhole_of_ofInt? {n : Int} {x : Double} (h : ofInt? n = some x) :
    x.isWhole = true ∧
      (x.truncate = n ∨ 2 * binade ≤ n.natAbs ∧ 2 * binade ≤ x.truncate.natAbs) := by
  have hfinite : x.isFinite = true := isFinite_of_ofInt? h
  obtain rfl : ofInt n = x := by
    obtain ⟨negative, -, hnone⟩ | ⟨negative, place, hx, hsome⟩ := ofInt_cases n
    · cases hnone.symm.trans h
    · exact hx.trans (Option.some.inj (hsome.symm.trans h))
  by_cases hn : n.natAbs ≤ 2 * binade
  · obtain ⟨-, hwhole, htruncate⟩ := truncate_ofInt hn
    exact ⟨hwhole, .inl htruncate⟩
  -- A larger number is rounded to a multiple of a power of two that is at least two.
  · have hle : 2 * binade ≤ n.natAbs := by omega
    obtain ⟨q, hq, hmagnitude, hratio⟩ := exists_ofRatio_large hle
    rw [ofInt_eq, hratio] at hfinite ⊢
    split at hfinite
    case isFalse => cases hfinite
    case isTrue hplace =>
      have hgrid : magnitudeAt (⟨_, hplace⟩ : Fin placeCount) = _ * unitsPerOne := hmagnitude
      obtain ⟨hwhole, htruncate⟩ := isWhole_onGrid (decide (n < 0)) hgrid
      have hlog : 53 ≤ n.natAbs.log2 :=
        (Nat.le_log2 (ne_zero_of_binade_le (Nat.le_trans (by decide) hle))).2 hle
      have hmul : binade * 2 ≤ q <<< (n.natAbs.log2 - 52) := by
        rw [Nat.shiftLeft_eq]
        exact Nat.mul_le_mul hq (Nat.pow_le_pow_right (by decide : 0 < 2) (by omega : 1 ≤ _))
      rw [dif_pos hplace, htruncate]
      refine ⟨hwhole, .inr ⟨hle, ?_⟩⟩
      split <;> omega

/-- No other whole number is nearest to the double of one that is less than `2 ^ 53`. -/
theorem truncate_eq_iff_of_ofInt? {n code : Int} {x : Double} (h : ofInt? n = some x)
    (hcode : code.natAbs < 2 * binade) : x.truncate = code ↔ n = code := by
  cases (isWhole_of_ofInt? h).2 with
  | inl htruncate => rw [htruncate]
  | inr hlarge => omega

/-! ## Decimals -/

/-- A whole number without an exponent is read as the double nearest to it. -/
theorem ofDecimal_eq_ofRatio (negative : Bool) (m : Nat) :
    ofDecimal negative m 0 = ofRatio negative m 1 := by
  by_cases hsmall : m ≤ 2 * binade
  · obtain ⟨place, hplace⟩ := exists_magnitudeAt_whole hsmall
    rw [ofDecimal_onGrid negative hplace, ofRatio_onGrid negative hplace]
  have hne : m ≠ 0 := by omega
  unfold ofDecimal
  rw [if_neg hne, Int.add_zero]
  by_cases hlength : (Nat.toDigits 10 m).length ≤ 400
  · rw [if_neg (by omega), if_neg (by omega), if_pos (Int.le_refl 0)]
    exact congrArg (ofRatio negative · 1) (Nat.mul_one m)
  -- A number of so many digits is cut off as an infinity, and rounds to it.
  · obtain ⟨j, hpos, hj, hbound⟩ : ∃ j, 0 < j ∧ j ≤ 400 ∧ 1 <<< 1024 ≤ Nat.pow 10 j :=
      ⟨309, by decide, by decide, by decide +kernel⟩
    have hle : Nat.pow 10 j ≤ m :=
      Nat.le_of_not_lt (mt (Nat.length_toDigits_le_iff (by decide) hpos).2 (by omega))
    rw [if_pos (by omega), ofRatio_eq_infinite negative (Nat.le_trans hbound hle)]

end Double

/-! ## Texts -/

/-- The text of a whole number is read as the double nearest to it. -/
theorem readDouble?_toString_eq (n : Int) :
    Text.readDouble? (toString n) = some (Double.ofInt n) := by
  rw [readDouble?_toString, Double.ofDecimal_eq_ofRatio, Double.ofInt_eq]

theorem toList_toString_negSucc (m : Nat) :
    (toString (Int.negSucc m)).toList = '-' :: (Nat.repr (m + 1)).toList := by
  show ("-" ++ Nat.repr (m + 1)).toList = _
  rw [String.toList_append]
  rfl

theorem isDigit_of_mem_repr {m : Nat} {c : Char} (hc : c ∈ (Nat.repr m).toList) :
    c.isDigit = true := by
  rw [Nat.toList_repr] at hc
  exact asciiDigits_toDigits m c hc

theorem mem_toString {n : Int} {c : Char} (hc : c ∈ (toString n).toList) :
    c = '-' ∨ c.isDigit = true := by
  cases n with
  | ofNat m => exact .inr (isDigit_of_mem_repr hc)
  | negSucc m =>
    rw [toList_toString_negSucc, List.mem_cons] at hc
    exact hc.imp_right isDigit_of_mem_repr

theorem toList_toString_ne_nil (n : Int) : (toString n).toList ≠ [] := by
  intro h
  cases n with
  | ofNat m => exact Nat.toDigits_ne_nil (Nat.toList_repr.symm.trans h)
  | negSucc m =>
    rw [toList_toString_negSucc] at h
    cases h

theorem toString_ofNat_ne_negSucc (m k : Nat) :
    toString (Int.ofNat m) ≠ toString (Int.negSucc k) := by
  intro h
  have hsign : '-' ∈ (Nat.repr m).toList := by
    rw [show Nat.repr m = toString (Int.negSucc k) from h, toList_toString_negSucc]
    exact List.mem_cons_self
  exact absurd (isDigit_of_mem_repr hsign) (by decide)

theorem rowValue_repr (m : Nat) : rowValue (Nat.repr m).toList = m := by
  rw [Nat.toList_repr, rowValue_toDigits]

theorem toString_inj {m n : Int} : toString m = toString n ↔ m = n := by
  refine ⟨fun h => ?_, congrArg toString⟩
  cases m with
  | ofNat m =>
    cases n with
    | ofNat n =>
      have hrow := congrArg (fun text => rowValue (String.toList text)) h
      exact congrArg Int.ofNat ((rowValue_repr m).symm.trans (hrow.trans (rowValue_repr n)))
    | negSucc n => exact absurd h (toString_ofNat_ne_negSucc m n)
  | negSucc m =>
    cases n with
    | ofNat n => exact absurd h.symm (toString_ofNat_ne_negSucc n m)
    | negSucc n =>
      have hlist := congrArg String.toList h
      rw [toList_toString_negSucc, toList_toString_negSucc, List.cons_inj_right] at hlist
      have hsucc := congrArg rowValue hlist
      rw [rowValue_repr, rowValue_repr] at hsucc
      exact congrArg Int.negSucc (Nat.succ.inj hsucc)

end ChartStyle
