import ChartStyle.Lookup.Table
import ChartStyle.Proofs.NormalForm
import ChartStyle.Proofs.RuleGroups
import ChartStyle.Proofs.WholeNumbers

/-!
# Normal forms of numbers

A number may be given as a truth value, a whole number, a double or a text with blanks around it,
in which signs, zeros, underscores and exponents do not matter (`Value.ReadsAs`). Its normal form
depends on nothing but the double that it reads as (`Value.normalForm_of_readsAs`), and of two
doubles with one normal form neither is greater (`Double.normalForm_eq_iff`): so the normal form is
a canonical one (`Value.normalForm_canonical`).
-/

set_option autoImplicit false

namespace ChartStyle

/-! ## Doubles by their place -/

namespace Double

theorem magnitudeAt_inj {place place' : Fin placeCount} :
    magnitudeAt place = magnitudeAt place' ↔ place = place' := by
  refine ⟨fun h => ?_, fun h => by rw [h]⟩
  have hnearest := nearest_magnitudeAt false place
  rw [h, nearest_magnitudeAt] at hnearest
  cases hnearest
  rfl

theorem magnitudeAt_eq_zero_iff {place : Nat} : magnitudeAt place = 0 ↔ place = 0 := by
  refine ⟨fun h => ?_, fun h => h ▸ magnitudeAt_zero⟩
  by_contra hplace
  exact absurd h (Nat.ne_of_gt (magnitudeAt_pos (Nat.pos_of_ne_zero hplace)))

variable {x y : Double}

/-- Finite numbers are equal just when they are as many units. -/
theorem same_iff_units (hx : x.isFinite = true) (hy : y.isFinite = true) :
    x.same y = true ↔ x.units = y.units := by
  rw [same_iff (ne_nan_of_isFinite hx) (ne_nan_of_isFinite hy)]
  cases x with
  | nan | infinite negative => cases hx
  | finite negative place =>
    cases y with
    | nan | infinite negative => cases hy
    | finite negative' place' =>
      have hzero : magnitudeAt place = 0 ↔ place.val = 0 := magnitudeAt_eq_zero_iff
      have hzero' : magnitudeAt place' = 0 ↔ place'.val = 0 := magnitudeAt_eq_zero_iff
      have hinj : magnitudeAt place = magnitudeAt place' ↔ place.val = place'.val :=
        magnitudeAt_inj.trans Fin.ext_iff
      -- Numbers of different signs are equal only as zeros.
      cases negative <;> cases negative' <;> simp only [rank, units] <;> omega

/-- Equal numbers are one double, or zeros. -/
theorem eq_of_same (hx : x.isFinite = true) (hy : y.isFinite = true) (h : x.same y = true)
    (hunits : x.units ≠ 0) : x = y := by
  have hrank := (same_iff (ne_nan_of_isFinite hx) (ne_nan_of_isFinite hy)).1 h
  cases x with
  | nan | infinite negative => cases hx
  | finite negative place =>
    cases y with
    | nan | infinite negative => cases hy
    | finite negative' place' =>
      have hplace : place.val ≠ 0 := by
        intro hplace
        rw [← Int.natAbs_ne_zero, natAbs_units] at hunits
        exact hunits (magnitudeAt_eq_zero_iff.2 hplace)
      cases negative <;> cases negative' <;> simp only [rank] at hrank
      · exact congrArg (finite false) (Fin.ext (by omega))
      · omega
      · omega
      · exact congrArg (finite true) (Fin.ext (by omega))

/-! ## The normal form of a double -/

/-- The normal form of a number: whole numbers without a fraction. -/
def normalForm (x : Double) : String := if x.isWhole then toString x.truncate else x.toText

theorem isWhole_iff_units (hx : x.isFinite = true) :
    x.isWhole = true ↔ x.units % unitsPerOne = 0 := by
  cases x with
  | nan | infinite negative => cases hx
  | finite negative place =>
    rw [isWhole]
    exact beq_iff_eq

/-- The normal form reads back as a number with as many units. -/
theorem readDouble?_normalForm (hx : x.isFinite = true) :
    ∃ y, Text.readDouble? x.normalForm = some y ∧ y.isFinite = true ∧ y.units = x.units := by
  unfold normalForm
  by_cases hwhole : x.isWhole = true
  · rw [if_pos hwhole]
    obtain ⟨y, hread, hy, htruncate⟩ := readDouble?_truncate hwhole
    have hfinite : y.isFinite = true := by
      cases y with
      | nan | infinite negative => cases hy
      | finite negative place => rfl
    refine ⟨y, hread, hfinite, ?_⟩
    have hmul := Int.tdiv_mul_cancel (Int.dvd_of_emod_eq_zero ((isWhole_iff_units hfinite).1 hy))
    have hmul' := Int.tdiv_mul_cancel (Int.dvd_of_emod_eq_zero ((isWhole_iff_units hx).1 hwhole))
    calc y.units = y.truncate * unitsPerOne := hmul.symm
      _ = x.truncate * unitsPerOne := by rw [htruncate]
      _ = x.units := hmul'
  · rw [if_neg hwhole]
    exact ⟨x, x.readDouble?_toText, hx, rfl⟩

/-- Two numbers have one normal form just when they are equal. -/
theorem normalForm_eq_iff (hx : x.isFinite = true) (hy : y.isFinite = true) :
    x.normalForm = y.normalForm ↔ x.same y = true := by
  rw [same_iff_units hx hy]
  constructor
  · intro h
    obtain ⟨x', hread, -, hunits⟩ := readDouble?_normalForm hx
    obtain ⟨y', hread', -, hunits'⟩ := readDouble?_normalForm hy
    rw [h, hread'] at hread
    rw [← hunits, ← hunits', Option.some.inj hread]
  · intro h
    have hwhole : x.isWhole = y.isWhole := by
      rw [Bool.eq_iff_iff, isWhole_iff_units hx, isWhole_iff_units hy, h]
    unfold normalForm
    rw [hwhole]
    split
    · rw [truncate, truncate, h]
    -- No number of no units has a fraction.
    · next hno =>
      have hne : x.units ≠ 0 := by
        intro hzero
        rw [← hwhole, isWhole_iff_units hx, hzero] at hno
        exact hno (Int.zero_emod _)
      rw [eq_of_same hx hy ((same_iff_units hx hy).2 h) hne]

end Double

/-! ## Texts with blanks around them -/

theorem isForeign_of_isBlank {c : Char} (h : Text.isBlank c = true) : IsForeign c := by
  have hne {d : Char} (hd : Text.isBlank d = false) : c ≠ d := by
    rintro rfl
    rw [h] at hd
    cases hd
  have hdecimal : Text.isDecimal c ≠ true := fun hc => by
    rw [Text.isBlank_of_isDecimal hc] at h
    cases h
  have hlower : c.toLower = c := by
    refine dif_neg fun hupper => ?_
    have hletter : 0x41 ≤ c.toNat ∧ c.toNat ≤ 0x5a := hupper
    simp only [Text.isBlank, Bool.or_eq_true, decide_eq_true_eq, beq_iff_eq] at h
    omega
  refine ⟨?_, ?_, ?_⟩
  · simpa [Text.isDecimal] using hdecimal
  · simp only [List.mem_cons, List.not_mem_nil, or_false, not_or]
    exact ⟨hne (by decide), hne (by decide), hne (by decide), hne (by decide), hne (by decide),
      hne (by decide)⟩
  · rw [hlower]
    simp only [List.mem_cons, List.not_mem_nil, or_false, not_or]
    exact ⟨hne (by decide), hne (by decide), hne (by decide), hne (by decide), hne (by decide),
      hne (by decide)⟩

/-- What is stripped off a text stands around what is left. -/
theorem exists_eq_stripWhile (p : Char → Bool) (cs : List Char) :
    ∃ before after, (∀ c ∈ before, p c = true) ∧ (∀ c ∈ after, p c = true) ∧
      cs = before ++ Text.stripWhile p cs ++ after := by
  have hfront := List.takeWhile_append_dropWhile (p := p) (l := cs)
  have hback := List.takeWhile_append_dropWhile (p := p) (l := (cs.dropWhile p).reverse)
  refine ⟨cs.takeWhile p, ((cs.dropWhile p).reverse.takeWhile p).reverse,
    fun c hc => List.mem_takeWhile_imp hc,
    fun c hc => List.mem_takeWhile_imp (List.mem_reverse.1 hc), ?_⟩
  replace hback := congrArg List.reverse hback
  rw [List.reverse_append, List.reverse_reverse] at hback
  rw [Text.stripWhile, List.append_assoc, hback, hfront]

/-- A text that is read as a number is read as the same number without the blanks around it. -/
theorem readDouble?_trimmed {s : String} {x : Double} (h : Text.readDouble? s = some x) :
    Text.readDouble? (Text.trimmed s) = some x := by
  obtain ⟨before, after, hbefore, hafter, hs⟩ := exists_eq_stripWhile Text.isNumberBlank s.toList
  generalize hcore : Text.stripWhile Text.isNumberBlank s.toList = core at hs
  have hblank : NoBlanks core := by
    intro c hc
    rw [← Bool.not_eq_true]
    intro hc'
    rw [readDouble?_of_mem (isForeign_of_isBlank hc') (hcore ▸ hc)] at h
    cases h
  have hne : core ≠ [] := by
    rintro rfl
    unfold Text.readDouble? at h
    rw [hcore] at h
    cases h
  have hblanks {cs : List Char} (hcs : ∀ c ∈ cs, Text.isNumberBlank c = true) : Blanks cs :=
    fun c hc => (Bool.and_eq_true_iff.1 (hcs c hc)).1
  have htight : Tight core := (trimmed_of_noBlanks hblank).resolve_left hne
  have htrim : (Text.trimmed s).toList = core := by
    rw [Text.trimmed, String.toList_ofList, hs, trim_eq (hblanks hbefore) htight (hblanks hafter)]
  have hstrip : Text.stripWhile Text.isNumberBlank core = core :=
    Text.stripWhile_eq_self fun c hc => Text.isNumberBlank_le (hblank c hc)
  unfold Text.readDouble? at h ⊢
  rw [hcore] at h
  rw [htrim, hstrip]
  exact h

/-! ## Values -/

namespace Value

/-- A scalar reads as a double, as it stands or without the blanks around it. -/
inductive ReadsAs : Value → Double → Prop where
  | direct {v : Value} {x : Double} (h : v.toDouble = .ok x) : ReadsAs v x
  | trimmed {s : String} {x : Double} (h : (text (Text.trimmed s)).toDouble = .ok x) :
      ReadsAs (text s) x

theorem toDouble_text_eq_ok_iff {s : String} {x : Double} :
    (text s).toDouble = .ok x ↔ Text.readDouble? s = some x := by
  rw [toDouble]
  cases Text.readDouble? s <;> simp

theorem normalText_of_read {s : String} {x : Double}
    (h : Text.readDouble? (Text.trimmed s) = some x) : normalText s = x.normalForm := by
  unfold normalText
  simp only [h]
  rfl

theorem normalForm_text (s : String) : (text s).normalForm = normalText s := rfl

theorem normalForm_int (n : Int) : (int n).normalForm = normalText (toString n) := rfl

theorem normalForm_real (x : Double) : (real x).normalForm = normalText x.toText := rfl

theorem normalForm_bool (b : Bool) :
    (bool b).normalForm = Double.normalForm (if b then 1 else 0) := by
  cases b <;> decide +kernel

/-- The normal form of a number is that of the double that it reads as. -/
theorem normalForm_of_readsAs {v : Value} {x : Double} (h : v.ReadsAs x) :
    v.normalForm = x.normalForm := by
  have hnormal {s : String} (hs : Text.readDouble? s = some x) : normalText s = x.normalForm :=
    normalText_of_read (readDouble?_trimmed hs)
  cases h with
  | trimmed h =>
    rw [normalForm_text]
    exact normalText_of_read (toDouble_text_eq_ok_iff.1 h)
  | direct h =>
    cases v with
    | null | list items | map entries | perFeature => cases h
    | bool b =>
      cases h
      exact normalForm_bool b
    | int n =>
      rw [toDouble] at h
      rw [normalForm_int, hnormal]
      rw [readDouble?_toString_eq]
      obtain ⟨negative, -, hnone⟩ | ⟨negative, place, hx, hsome⟩ := Double.ofInt_cases n
      · rw [hnone] at h
        cases h
      · rw [hsome] at h
        cases h
        rw [hx]
    | real y =>
      cases h
      rw [normalForm_real]
      exact hnormal x.readDouble?_toText
    | text s =>
      rw [normalForm_text]
      exact hnormal (toDouble_text_eq_ok_iff.1 h)

/-- The normal form of a value is its own normal form, and scalars that read as finite numbers have
one normal form just when the numbers are equal. So a text that a rule expects, when it is not
empty, is a value with which the rule's constraint is met. -/
theorem normalForm_canonical :
    (∀ v : Value, (text v.normalForm).normalForm = v.normalForm) ∧
      (∀ (v w : Value) (x y : Double), v.ReadsAs x → w.ReadsAs y → x.isFinite = true →
        y.isFinite = true → (v.normalForm = w.normalForm ↔ x.same y = true)) ∧
      ∀ (record : Value) (index : Int) (rule : LookupRule),
        LookupRule.ofRecord record index = .ok rule →
          ∀ c ∈ rule.constraints, ∀ expected ∈ c.expected, expected ≠ "" →
            ∀ a : AttributeSet, a.find? c.code = some (.text expected) → c.holds a = true := by
  refine ⟨normalText_normalForm, ?_, ?_⟩
  · intro v w x y hv hw hx hy
    rw [normalForm_of_readsAs hv, normalForm_of_readsAs hw]
    exact Double.normalForm_eq_iff hx hy
  · intro record index rule hrule c hc expected hexpected hne a ha
    have hnormal := LookupRule.expectsNormal_of_ofRecord hrule c hc expected hexpected
    refine Constraint.holds_iff.2 ⟨.text expected, ha, by simp [isStated, hne], ?_⟩
    intro text htext
    rw [normalForm_text, hnormal]
    exact Option.some.inj (hexpected.symm.trans htext)

/-- The record of a rule for foul areas, with the category as a text. -/
def foulAreaRecord : Value :=
  LookupTable.obstructionRecord [("CATOBS", .text " 06.0 ")] "LS(SOLD,1,CHBLK)"

/-- The rule of the record. -/
def foulAreaRule : LookupRule :=
  LookupTable.obstructionRule 0 [⟨"CATOBS", some "6"⟩] "LS(SOLD,1,CHBLK)"
    [⟨.ls, [.text "SOLD", .int 1, .text "CHBLK"]⟩]

set_option maxRecDepth 10000 in
theorem ofRecord_foulAreaRecord : LookupRule.ofRecord foulAreaRecord 0 = .ok foulAreaRule := by
  with_unfolding_all rfl

/-- A list of a text and a list, six in two ways, and the rule for foul areas. -/
theorem normalForm_canonical_foulArea :
    (text (list [text " 06.0 ", list [bool true, text "a b "]]).normalForm).normalForm = "6,1,a b" ∧
      (int 6).normalForm = (text "\x1c+0_6e0").normalForm ∧
      LookupRule.ofRecord foulAreaRecord 0 = .ok foulAreaRule ∧
      (Constraint.mk "CATOBS" (some "6")).holds ⟨"OBSTRN", [("CATOBS", .text "6")]⟩ = true := by
  obtain ⟨hnormal, hsame, hmeets⟩ := normalForm_canonical
  refine ⟨?_, ?_, ofRecord_foulAreaRecord, ?_⟩
  · rw [hnormal]
    decide +kernel
  · have hsix : (int 6).ReadsAs 6 := .direct (by decide +kernel)
    have hsix' : (text "\x1c+0_6e0").ReadsAs 6 :=
      .trimmed (toDouble_text_eq_ok_iff.2 (by decide +kernel))
    exact (hsame _ _ _ _ hsix hsix' (by decide +kernel) (by decide +kernel)).2 (by decide +kernel)
  · exact hmeets _ _ _ ofRecord_foulAreaRecord _ List.mem_cons_self "6" rfl (by decide) _ rfl

end Value

end ChartStyle
