import ChartStyle.Double.Layout
import ChartStyle.Proofs.ExactRounding
import ChartStyle.Proofs.NumeralReading

/-!
# Numbers read back from their text

The shortest decimal of a double is read as this double (`ofDecimal_shortest`), and the text of a
decimal, written out in full or with an exponent, is read as what the decimal stands for
(`Layout.readDouble?_write`). So every double is read back from its text
(`Double.readDouble?_toText`), and a whole number as the double that is nearest to it
(`readDouble?_toString`).
-/

set_option autoImplicit false

namespace ChartStyle

/-! ## Shortest decimals -/

theorem roundHalfEven_eq (n d : Nat) :
    roundHalfEven n d = n / d ∨ roundHalfEven n d = n / d + 1 := by
  have hparity := Nat.mod_two_eq_zero_or_one (n / d)
  unfold roundHalfEven
  simp only
  split
  · exact .inl rfl
  · split
    · exact .inr rfl
    · omega

namespace Double

variable {x : Double}

theorem readsBack_iff {decimal : Decimal} :
    x.readsBack decimal = true ↔ ofDecimal x.isNegative decimal.digits decimal.exponent = x := by
  rw [readsBack, beq_iff_eq]

theorem readsBack_of_neighbour? {exponent : Int} {decimal : Decimal}
    (h : x.neighbour? exponent = some decimal) : x.readsBack decimal = true := by
  unfold neighbour? at h
  simp only at h
  split at h
  -- The nearer of two neighbours is one of them.
  · next hbelow habove =>
    cases h
    cases roundHalfEven_eq (scaleDown x.units.natAbs unitsPerOne exponent).1
        (scaleDown x.units.natAbs unitsPerOne exponent).2 with
    | inl heq =>
      rw [heq]
      exact hbelow
    | inr heq =>
      rw [heq]
      exact habove
  · next hbelow _ =>
    cases h
    exact hbelow
  · next _ habove =>
    cases h
    exact habove
  · cases h

/-- The shortest decimal of a double is read as the double. -/
theorem ofDecimal_shortest (negative : Bool) (place : Fin placeCount) :
    ofDecimal negative (finite negative place).shortest.digits
      (finite negative place).shortest.exponent = finite negative place := by
  unfold shortest
  split
  case isTrue hzero =>
    have hplace : place.val = 0 := eq_of_beq hzero
    rw [ofDecimal_zero]
    exact congrArg (finite negative) (Fin.ext hplace.symm)
  case isFalse hzero =>
    have hplace : place.val ≠ 0 := fun h => hzero (beq_iff_eq.2 h)
    simp only
    -- Either a decimal was found that reads back, or the exact one stands in.
    cases hfind : (List.range 17).findSome? fun (further : Nat) =>
        (finite negative place).neighbour?
          (leadingExponent (finite negative place).units.natAbs unitsPerOne - further) with
    | none =>
      exact ofDecimal_exactDecimal negative hplace
    | some decimal =>
      obtain ⟨further, -, hneighbour⟩ := List.exists_of_findSome?_eq_some hfind
      exact readsBack_iff.1 (readsBack_of_neighbour? hneighbour)

end Double

/-! ## Rows of digits of ASCII -/

/-- The digits are digits of ASCII. -/
def AsciiDigits (cs : List Char) : Prop := ∀ c ∈ cs, c.isDigit = true

theorem AsciiDigits.isDecimal {cs : List Char} (h : AsciiDigits cs) :
    ∀ c ∈ cs, Text.isDecimal c = true := fun c hc => Text.isDecimal_of_isDigit (h c hc)

theorem asciiDigits_append {as bs : List Char} (has : AsciiDigits as) (hbs : AsciiDigits bs) :
    AsciiDigits (as ++ bs) := fun c hc => (List.mem_append.1 hc).elim (has c) (hbs c)

theorem asciiDigits_zeros (n : Nat) : AsciiDigits (List.replicate n '0') := by
  intro c hc
  rw [List.eq_of_mem_replicate hc]
  rfl

theorem asciiDigits_toDigits (n : Nat) : AsciiDigits (Nat.toDigits 10 n) :=
  fun _ hc => Nat.isDigit_of_mem_toDigits (by decide) (by decide) hc

/-- The number that a row of digits writes. -/
def rowValue (cs : List Char) : Nat := Nat.ofDigitChars 10 cs 0

theorem digitsValue_rowValues {cs : List Char} (h : AsciiDigits cs) :
    Text.digitsValue (Text.rowValues cs) = rowValue cs := by
  have key : ∀ (cs : List Char) (n : Nat), AsciiDigits cs →
      (Text.rowValues cs).foldl (fun n digit => 10 * n + digit) n = Nat.ofDigitChars 10 cs n := by
    intro cs
    induction cs with
    | nil => exact fun n _ => rfl
    | cons c cs ih =>
      intro n h
      have hc := Text.decimalValue?_of_isDigit (h c List.mem_cons_self)
      rw [Text.rowValues_cons hc, List.foldl_cons, ih _ fun d hd => h d (List.mem_cons_of_mem c hd),
        Nat.ofDigitChars_cons]
      rfl
  exact key cs 0 h

theorem rowValue_toDigits (n : Nat) : rowValue (Nat.toDigits 10 n) = n :=
  Nat.ofDigitChars_ten_toDigits

theorem rowValue_append_zeros (cs : List Char) (n : Nat) :
    rowValue (cs ++ List.replicate n '0') = rowValue cs * Nat.pow 10 n := by
  rw [rowValue, Nat.ofDigitChars_append, Nat.ofDigitChars_replicate_zero]
  exact Nat.mul_comm _ _

theorem rowValue_zeros_append (n : Nat) (cs : List Char) :
    rowValue (List.replicate n '0' ++ cs) = rowValue cs := by
  rw [rowValue, Nat.ofDigitChars_append, Nat.ofDigitChars_replicate_zero, Nat.mul_zero]
  rfl

/-! ## Reading what was written -/

/-- What may follow the digits of a number: an exponent, or nothing. -/
structure ExponentText (rest : List Char) (exponent : Int) : Prop where
  read : Text.readExponent? rest = some exponent
  endsRow : Text.EndsRow rest
  noPoint : ∀ c ∈ rest.head?, c ≠ '.'
  noBlank : ∀ c ∈ rest, Text.isBlank c = false

theorem exponentText_nil : ExponentText [] 0 := ⟨rfl, Text.endsRow_nil, by simp, by simp⟩

theorem isBlank_of_signText {negative : Bool} {sign : List Char}
    (h : Text.SignText negative sign) : ∀ c ∈ sign, Text.isBlank c = false := by
  cases h with
  | none => simp
  | plus | minus =>
    intro c hc
    rw [List.mem_singleton] at hc
    subst hc
    decide

section Reading

variable {s : String} {negative : Bool} {sign whole rest : List Char} {exponent : Int}
  (hsign : Text.SignText negative sign) (hwhole : AsciiDigits whole) (hne : whole ≠ [])
  (hrest : ExponentText rest exponent)

include hwhole hne in
theorem startsNumeral_digits (tail : List Char) : Text.StartsNumeral (whole ++ tail) := by
  intro c hc
  cases whole with
  | nil => exact absurd rfl hne
  | cons d ds =>
    rw [List.cons_append, List.head?_cons, Option.mem_some_iff] at hc
    exact .inl (hc ▸ hwhole.isDecimal d List.mem_cons_self)

include hsign hwhole hne hrest

/-- Digits without a point are read as a whole number with an exponent. -/
theorem readDouble?_whole (hs : s.toList = sign ++ (whole ++ rest)) :
    Text.readDouble? s = some (Double.ofDecimal negative (rowValue whole) exponent) := by
  have hblank : ∀ c ∈ sign ++ (whole ++ rest), Text.isBlank c = false := by
    intro c hc
    simp only [List.mem_append] at hc
    rcases hc with hc | hc | hc
    · exact isBlank_of_signText hsign c hc
    · exact Text.isBlank_of_isDecimal (hwhole.isDecimal c hc)
    · exact hrest.noBlank c hc
  have hmantissa := Text.mantissa_whole hwhole.isDecimal hrest.endsRow hrest.noPoint
  have hdigits : Text.rowValues whole ++ [] ≠ [] := by
    rw [List.append_nil]
    exact mt (Text.rowValues_eq_nil hwhole.isDecimal).1 hne
  rw [Text.readDouble?_of_mantissa hs hsign hblank (startsNumeral_digits hwhole hne rest) hmantissa
    hdigits hrest.read, List.append_nil, digitsValue_rowValues hwhole]
  simp

/-- Each digit behind a point takes one off the exponent. -/
theorem readDouble?_point {fraction : List Char} (hfraction : AsciiDigits fraction)
    (hs : s.toList = sign ++ (whole ++ '.' :: (fraction ++ rest))) :
    Text.readDouble? s =
      some (Double.ofDecimal negative (rowValue (whole ++ fraction))
        (exponent - fraction.length)) := by
  have hblank : ∀ c ∈ sign ++ (whole ++ '.' :: (fraction ++ rest)), Text.isBlank c = false := by
    intro c hc
    simp only [List.mem_append, List.mem_cons] at hc
    rcases hc with hc | hc | rfl | hc | hc
    · exact isBlank_of_signText hsign c hc
    · exact Text.isBlank_of_isDecimal (hwhole.isDecimal c hc)
    · decide
    · exact Text.isBlank_of_isDecimal (hfraction.isDecimal c hc)
    · exact hrest.noBlank c hc
  have hmantissa := Text.mantissa_point hwhole.isDecimal hfraction.isDecimal hrest.endsRow
  have hdigits : Text.rowValues whole ++ Text.rowValues fraction ≠ [] := by
    intro h
    exact hne ((Text.rowValues_eq_nil hwhole.isDecimal).1 (List.append_eq_nil_iff.1 h).1)
  rw [Text.readDouble?_of_mantissa hs hsign hblank (startsNumeral_digits hwhole hne _) hmantissa
    hdigits hrest.read, ← Text.rowValues_append,
    digitsValue_rowValues (asciiDigits_append hwhole hfraction),
    Text.length_rowValues hfraction.isDecimal]

end Reading

/-! ## Decimals in full and with an exponent -/

namespace Layout

/-- The exponent of the first digit is one less than this number. -/
def pointOf (decimal : Decimal) : Int :=
  if decimal.digits = 0 then 1 else (Nat.toDigits 10 decimal.digits).length + decimal.exponent

/-- The significant digits are those of the number without the zeros at its end. -/
theorem toDigits_eq_significantDigits (decimal : Decimal) :
    significantDigits decimal ≠ [] ∧
      ∃ n, Nat.toDigits 10 decimal.digits = significantDigits decimal ++ List.replicate n '0' := by
  have hzeros : ∀ c ∈ (Nat.toDigits 10 decimal.digits).reverse.takeWhile (· == '0'), c = '0' :=
    fun c hc => eq_of_beq (List.all_eq_true.1 List.all_takeWhile c hc)
  have hsplit := List.takeWhile_append_dropWhile (p := (· == '0'))
    (l := (Nat.toDigits 10 decimal.digits).reverse)
  rw [List.eq_replicate_of_mem hzeros] at hsplit
  replace hsplit := congrArg List.reverse hsplit
  rw [List.reverse_append, List.reverse_reverse, List.reverse_replicate] at hsplit
  unfold significantDigits
  split
  -- All digits are zeros; one of them is kept.
  case h_1 hnil =>
    rw [hnil, List.nil_append] at hsplit
    have hlength : ((Nat.toDigits 10 decimal.digits).reverse.takeWhile (· == '0')).length ≠ 0 := by
      intro h
      rw [h] at hsplit
      exact Nat.toDigits_ne_nil hsplit.symm
    obtain ⟨n, hn⟩ := Nat.exists_eq_succ_of_ne_zero hlength
    rw [hn] at hsplit
    exact ⟨List.cons_ne_nil _ _, n, hsplit.symm⟩
  case h_2 hne =>
    exact ⟨hne, _, hsplit.symm⟩

theorem asciiDigits_significantDigits (decimal : Decimal) :
    AsciiDigits (significantDigits decimal) := by
  obtain ⟨-, n, heq⟩ := toDigits_eq_significantDigits decimal
  intro c hc
  refine asciiDigits_toDigits decimal.digits c ?_
  rw [heq]
  exact List.mem_append_left _ hc

/-- The significant digits with their exponent stand for the decimal. -/
theorem ofDecimal_significantDigits (negative : Bool) (decimal : Decimal) :
    Double.ofDecimal negative (rowValue (significantDigits decimal))
      (pointOf decimal - (significantDigits decimal).length) =
    Double.ofDecimal negative decimal.digits decimal.exponent := by
  obtain ⟨-, n, heq⟩ := toDigits_eq_significantDigits decimal
  have hvalue := rowValue_toDigits decimal.digits
  have hlength := congrArg List.length heq
  rw [heq, rowValue_append_zeros] at hvalue
  rw [List.length_append, List.length_replicate] at hlength
  by_cases hzero : decimal.digits = 0
  · have hrow : rowValue (significantDigits decimal) = 0 := by
      rw [hzero] at hvalue
      exact (Nat.mul_eq_zero.1 hvalue).resolve_right (Nat.ne_of_gt (Nat.pow_pos (by decide)))
    rw [hrow, hzero, Double.ofDecimal_zero, Double.ofDecimal_zero]
  · rw [← hvalue, Double.ofDecimal_shift, pointOf, if_neg hzero]
    congr 1
    omega

/-- Digits written out in full are a whole part, a point and a fraction, which stand for the decimal
that they are. -/
theorem positional_parts {digits : List Char} (point : Int) (hdigits : AsciiDigits digits)
    (hne : digits ≠ []) :
    ∃ whole fraction, AsciiDigits whole ∧ whole ≠ [] ∧ AsciiDigits fraction ∧
      (full.positional digits point).toList = whole ++ '.' :: fraction ∧
      ∀ negative, Double.ofDecimal negative (rowValue (whole ++ fraction)) (0 - fraction.length) =
        Double.ofDecimal negative (rowValue digits) (point - digits.length) := by
  have hzero : AsciiDigits ['0'] := asciiDigits_zeros 1
  unfold positional
  split
  -- The number starts behind the point.
  case isTrue hpoint =>
    refine ⟨['0'], List.replicate (-point).toNat '0' ++ digits, hzero, List.cons_ne_nil _ _,
      asciiDigits_append (asciiDigits_zeros _) hdigits, ?_, fun negative => ?_⟩
    · simp only [String.toList_append, String.toList_ofList]
      rfl
    · have hrow : rowValue (['0'] ++ (List.replicate (-point).toNat '0' ++ digits)) =
          rowValue digits := by
        rw [← List.append_assoc]
        exact rowValue_zeros_append ((-point).toNat + 1) digits
      rw [hrow, List.length_append, List.length_replicate]
      congr 1
      omega
  case isFalse hpoint =>
  split
  -- The number ends before the point.
  case isTrue hlength =>
    refine ⟨digits ++ List.replicate (point.toNat - digits.length) '0', ['0'],
      asciiDigits_append hdigits (asciiDigits_zeros _),
      List.append_ne_nil_of_left_ne_nil hne _, hzero, ?_, fun negative => ?_⟩
    · rw [String.toList_append, String.toList_ofList]
      rfl
    · have hrow : rowValue (digits ++ List.replicate (point.toNat - digits.length) '0' ++ ['0']) =
          rowValue digits * Nat.pow 10 (point.toNat - digits.length + 1) := by
        rw [List.append_assoc, ← List.replicate_succ', rowValue_append_zeros]
      rw [hrow, Double.ofDecimal_shift, List.length_singleton]
      congr 1
      omega
  -- The point stands inside the number.
  case isFalse hlength =>
    refine ⟨digits.take point.toNat, digits.drop point.toNat,
      fun c hc => hdigits c (List.mem_of_mem_take hc), ?_,
      fun c hc => hdigits c (List.mem_of_mem_drop hc), ?_, fun negative => ?_⟩
    · rw [Ne, List.take_eq_nil_iff]
      rintro (h | h)
      · omega
      · exact hne h
    · simp only [String.toList_append, String.toList_ofList, List.append_assoc]
      rfl
    · rw [List.take_append_drop, List.length_drop]
      congr 1
      omega

/-- Digits written out in full are read as the decimal that they are. -/
theorem readDouble?_positional {s : String} {negative : Bool} {sign digits : List Char}
    (point : Int) (hsign : Text.SignText negative sign) (hdigits : AsciiDigits digits)
    (hne : digits ≠ [])
    (hs : s.toList = sign ++ (full.positional digits point).toList) :
    Text.readDouble? s =
      some (Double.ofDecimal negative (rowValue digits) (point - digits.length)) := by
  obtain ⟨whole, fraction, hwhole, hne', hfraction, htext, hvalue⟩ :=
    positional_parts point hdigits hne
  rw [htext] at hs
  rw [readDouble?_point hsign hwhole hne' exponentText_nil hfraction (by simpa using hs),
    hvalue negative]

theorem readExponent?_digits {negative : Bool} {sign digits : List Char}
    (hsign : Text.SignText negative sign) (hdigits : AsciiDigits digits) (hne : digits ≠ []) :
    Text.readExponent? ('e' :: (sign ++ digits)) =
      some (if negative then -(rowValue digits : Int) else rowValue digits) := by
  have hunsigned := (startsNumeral_digits hdigits hne []).unsigned
  rw [List.append_nil] at hunsigned
  have hrun := Text.digitRun_append hdigits.isDecimal Text.endsRow_nil
  rw [List.append_nil] at hrun
  have hvalues := mt (Text.rowValues_eq_nil hdigits.isDecimal).1 hne
  obtain ⟨first, others, hrow⟩ := List.exists_cons_of_ne_nil hvalues
  rw [← digitsValue_rowValues hdigits, hrow]
  rw [hrow] at hrun
  simp only [Text.readExponent?, Text.signed_append hsign hunsigned, hrun]
  rfl

/-- An exponent is a letter, a sign and digits. -/
theorem exponentText_parts (exponent : Int) :
    ∃ sign digits, Text.SignText (decide (exponent < 0)) sign ∧ AsciiDigits digits ∧ digits ≠ [] ∧
      rowValue digits = exponent.natAbs ∧
      (exponentText exponent).toList = 'e' :: (sign ++ digits) := by
  obtain ⟨n, hpad⟩ : ∃ n, (if (Nat.toDigits 10 exponent.natAbs).length < 2 then "0" else "").toList =
      List.replicate n '0' := by
    split
    · exact ⟨1, rfl⟩
    · exact ⟨0, rfl⟩
  obtain ⟨sign, hsign, htext⟩ : ∃ sign, Text.SignText (decide (exponent < 0)) sign ∧
      (exponentText exponent).toList =
        'e' :: (sign ++ (List.replicate n '0' ++ Nat.toDigits 10 exponent.natAbs)) := by
    unfold exponentText
    simp only [String.toList_append, String.toList_ofList, hpad]
    by_cases hneg : exponent < 0
    · rw [decide_eq_true hneg, if_pos hneg]
      exact ⟨_, .minus, by simp⟩
    · rw [decide_eq_false hneg, if_neg hneg]
      exact ⟨_, .plus, by simp⟩
  refine ⟨sign, _, hsign, asciiDigits_append (asciiDigits_zeros n) (asciiDigits_toDigits _),
    List.append_ne_nil_of_right_ne_nil _ Nat.toDigits_ne_nil, ?_, htext⟩
  rw [rowValue_zeros_append, rowValue_toDigits]

theorem exponentText_exponentText (exponent : Int) :
    ExponentText (exponentText exponent).toList exponent := by
  obtain ⟨sign, digits, hsign, hdigits, hne, hvalue, htext⟩ := exponentText_parts exponent
  rw [htext]
  -- It is read as the exponent, ends a row of digits, starts no fraction and holds no blank.
  refine ⟨?_, Text.endsRow_cons (by decide) (by decide), ?_, ?_⟩
  · rw [readExponent?_digits hsign hdigits hne, hvalue]
    congr 1
    simp only [decide_eq_true_eq]
    split <;> omega
  · intro c hc
    cases hc
    decide
  · intro c hc
    cases List.mem_cons.1 hc with
    | inl hc =>
      subst hc
      decide
    | inr hc =>
      cases List.mem_append.1 hc with
      | inl hc => exact isBlank_of_signText hsign c hc
      | inr hc => exact Text.isBlank_of_isDecimal (hdigits.isDecimal c hc)

/-- Digits written with an exponent are read as the decimal that they are. -/
theorem readDouble?_scientific {s : String} {negative : Bool} {sign digits : List Char}
    (exponent : Int) (hsign : Text.SignText negative sign) (hdigits : AsciiDigits digits)
    (hne : digits ≠ []) (hs : s.toList = sign ++ (scientific digits exponent).toList) :
    Text.readDouble? s =
      some (Double.ofDecimal negative (rowValue digits) (exponent + 1 - digits.length)) := by
  have hrest := exponentText_exponentText exponent
  cases digits with
  | nil => exact absurd rfl hne
  | cons first others =>
  have hfirst : AsciiDigits [first] :=
    fun c hc => hdigits c (List.mem_singleton.1 hc ▸ List.mem_cons_self)
  have hothers : AsciiDigits others := fun c hc => hdigits c (List.mem_cons_of_mem first hc)
  unfold scientific at hs
  split at hs
  -- Only a number of more digits than one has a point.
  case isTrue hlength =>
    simp only [String.toList_append, String.toList_ofList] at hs
    rw [readDouble?_point hsign hfirst (List.cons_ne_nil _ _) hrest hothers (by simpa using hs)]
    congr 2
    rw [List.length_cons]
    omega
  case isFalse hlength =>
    have hnil : others = [] := by
      rw [List.length_cons] at hlength
      exact List.eq_nil_of_length_eq_zero (by omega)
    subst hnil
    simp only [String.toList_append, String.toList_ofList] at hs
    rw [readDouble?_whole hsign hfirst (List.cons_ne_nil _ _) hrest (by simpa using hs)]
    congr 2
    simp

theorem write_eq (layout : Layout) (negative : Bool) (decimal : Decimal) :
    layout.write negative decimal =
      (if negative then "-" else "") ++
        if -4 ≤ pointOf decimal - 1 ∧ pointOf decimal - 1 < layout.scientificFrom then
          layout.positional (significantDigits decimal) (pointOf decimal)
        else scientific (significantDigits decimal) (pointOf decimal - 1) := rfl

/-- A number below zero is written with a minus, any other without a sign. -/
theorem signText_write (negative : Bool) :
    Text.SignText negative (if negative then "-" else "" : String).toList := by
  cases negative with
  | true => exact .minus
  | false => exact .none

/-- The text of a decimal is read as what the decimal stands for. -/
theorem readDouble?_write (negative : Bool) (decimal : Decimal) :
    Text.readDouble? (full.write negative decimal) =
      some (Double.ofDecimal negative decimal.digits decimal.exponent) := by
  have hdigits := asciiDigits_significantDigits decimal
  have hne := (toDigits_eq_significantDigits decimal).1
  have hsign := signText_write negative
  rw [← ofDecimal_significantDigits]
  by_cases hfull : -4 ≤ pointOf decimal - 1 ∧ pointOf decimal - 1 < full.scientificFrom
  · refine readDouble?_positional (pointOf decimal) hsign hdigits hne ?_
    rw [write_eq, if_pos hfull, String.toList_append]
  · have hread := readDouble?_scientific (s := full.write negative decimal) (pointOf decimal - 1)
      hsign hdigits hne ?_
    · rw [hread, Int.sub_add_cancel]
    · rw [write_eq, if_neg hfull, String.toList_append]

end Layout

/-- A double is read back from its text. -/
theorem Double.readDouble?_toText (x : Double) : Text.readDouble? x.toText = some x := by
  cases x with
  | nan => decide
  | infinite negative => cases negative <;> decide
  | finite negative place =>
    rw [toText, Layout.readDouble?_write, ofDecimal_shortest]

theorem toList_toString (n : Int) :
    ∃ sign, Text.SignText (decide (n < 0)) sign ∧
      (toString n).toList = sign ++ Nat.toDigits 10 n.natAbs := by
  cases n with
  | ofNat m => exact ⟨[], .none, Nat.toList_repr⟩
  | negSucc m =>
    refine ⟨['-'], ?_, ?_⟩
    · rw [decide_eq_true (Int.negSucc_lt_zero m)]
      exact .minus
    · show ("-" ++ Nat.repr (m + 1)).toList = _
      rw [String.toList_append, Nat.toList_repr]
      rfl

/-- A whole number is read as the double that is nearest to it. -/
theorem readDouble?_toString (n : Int) :
    Text.readDouble? (toString n) = some (Double.ofDecimal (decide (n < 0)) n.natAbs 0) := by
  obtain ⟨sign, hsign, htext⟩ := toList_toString n
  rw [← List.append_nil (Nat.toDigits 10 n.natAbs)] at htext
  rw [readDouble?_whole hsign (asciiDigits_toDigits n.natAbs) Nat.toDigits_ne_nil exponentText_nil
    htext, rowValue_toDigits]

end ChartStyle
