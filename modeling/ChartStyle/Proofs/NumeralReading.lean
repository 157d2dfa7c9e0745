import ChartStyle.Text.Number

/-!
# Reading rows of digits

A row of digits of any script is read as its value whatever follows it, as long as that does not
continue the row (`moreDigits_append`). So a numeral of a sign, digits, a point and more digits is
read as the decimal that these digits write (`readDouble?_of_mantissa` with `mantissa_point`).
-/

set_option autoImplicit false

namespace ChartStyle.Text

/-! ## Blanks at the ends -/

theorem stripWhile_eq_self {p : Char → Bool} {cs : List Char} (h : ∀ c ∈ cs, p c = false) :
    stripWhile p cs = cs := by
  have hdrop {ds : List Char} (hds : ∀ c ∈ ds, p c = false) : ds.dropWhile p = ds := by
    cases ds with
    | nil => rfl
    | cons d ds => exact List.dropWhile_cons_of_neg (by simp [hds d List.mem_cons_self])
  rw [stripWhile, hdrop h, hdrop fun c hc => h c (List.mem_reverse.1 hc), List.reverse_reverse]

/-! ## Classes of characters -/

theorem isNumberBlank_le {c : Char} (h : isBlank c = false) : isNumberBlank c = false := by
  rw [isNumberBlank, h, Bool.false_and]

/-- A row of digits ends where something else stands. -/
theorem span_isDecimal {digits : List Char} (hdigits : ∀ c ∈ digits, isDecimal c = true)
    (rest : List Char) (hrest : ∀ c ∈ rest.head?, isDecimal c = false) :
    (digits ++ rest).takeWhile isDecimal = digits ∧
      (digits ++ rest).dropWhile isDecimal = rest := by
  rw [List.takeWhile_append_of_pos hdigits, List.dropWhile_append_of_pos hdigits]
  cases rest with
  | nil => simp
  | cons c cs => simp [hrest c rfl]

/-- The start of a script's digits that holds a decimal digit. -/
theorem exists_zero_of_isDecimal {c : Char} (h : isDecimal c = true) :
    ∃ start ∈ decimalZeros, ∃ digit < 10, c.toNat = start + digit := by
  simp only [isDecimal, decimalValue?, Option.isSome_map] at h
  obtain ⟨start, hstart⟩ := Option.isSome_iff_exists.1 h
  have hrange := List.find?_some hstart
  rw [decide_eq_true_eq] at hrange
  exact ⟨start, List.mem_of_find?_eq_some hstart, c.toNat - start, by omega, by omega⟩

/-- The digits of all scripts lie apart from the blanks and from what is not a digit in ASCII. -/
theorem decimalZeros_apart : ∀ start ∈ decimalZeros, ∀ digit < 10,
    isBlank (Char.ofNat (start + digit)) = false ∧
      (start = 0x30 ∨ 0x80 ≤ start) := by decide +kernel

theorem isBlank_of_isDecimal {c : Char} (h : isDecimal c = true) : isBlank c = false := by
  obtain ⟨start, hstart, digit, hdigit, hc⟩ := exists_zero_of_isDecimal h
  have hblank := (decimalZeros_apart start hstart digit hdigit).1
  rw [← hc, Char.ofNat_toNat] at hblank
  exact hblank

/-- A decimal digit is a digit of ASCII or no character of ASCII. -/
theorem isDecimal_range {c : Char} (h : isDecimal c = true) :
    (0x30 ≤ c.toNat ∧ c.toNat < 0x3a) ∨ 0x80 ≤ c.toNat := by
  obtain ⟨start, hstart, digit, hdigit, hc⟩ := exists_zero_of_isDecimal h
  have hstart' := (decimalZeros_apart start hstart digit hdigit).2
  omega

theorem forall_ascii {P : Char → Prop} (h : ∀ n < 0x80, P (Char.ofNat n)) {c : Char}
    (hc : c.toNat < 0x80) : P c := by
  have hP := h c.toNat hc
  rwa [Char.ofNat_toNat] at hP

theorem isDigit_iff {c : Char} : c.isDigit = true ↔ 0x30 ≤ c.toNat ∧ c.toNat ≤ 0x39 := by
  simp only [Char.isDigit, Bool.and_eq_true, decide_eq_true_eq]
  rfl

theorem isUpper_iff {c : Char} : c.isUpper = true ↔ 0x41 ≤ c.toNat ∧ c.toNat ≤ 0x5a :=
  decide_eq_true_iff

theorem isLower_iff {c : Char} : c.isLower = true ↔ 0x61 ≤ c.toNat ∧ c.toNat ≤ 0x7a := by
  show (decide (0x61 ≤ c.val) && decide (c.val ≤ 0x7a)) = true ↔ _
  rw [Bool.and_eq_true, decide_eq_true_eq, decide_eq_true_eq]
  rfl

theorem isAlpha_iff {c : Char} : c.isAlpha = true ↔ c.isUpper = true ∨ c.isLower = true :=
  Bool.or_eq_true_iff

/-- A digit of ASCII counts from the zero of ASCII. -/
theorem decimalValue?_of_isDigit {c : Char} (h : c.isDigit = true) :
    decimalValue? c = some (c.toNat - 0x30) := by
  have hascii : ∀ n < 0x80, (Char.ofNat n).isDigit = true →
      decimalValue? (Char.ofNat n) = some ((Char.ofNat n).toNat - 0x30) := by decide +kernel
  have hrange := isDigit_iff.1 h
  have hc : c.toNat < 0x80 := by omega
  refine forall_ascii (P := fun c => c.isDigit = true → decimalValue? c = some (c.toNat - 0x30))
    hascii hc h

theorem isDecimal_of_isDigit {c : Char} (h : c.isDigit = true) : isDecimal c = true := by
  rw [isDecimal, decimalValue?_of_isDigit h]
  rfl

theorem isDecimal_iff_isDigit {c : Char} (h : c.toNat < 0x80) :
    isDecimal c = true ↔ c.isDigit = true := by
  have hascii : ∀ n < 0x80, isDecimal (Char.ofNat n) = true ↔ (Char.ofNat n).isDigit = true := by
    decide +kernel
  exact forall_ascii (P := fun c => isDecimal c = true ↔ c.isDigit = true) hascii h

/-! ## Rows of digits -/

/-- The values of the digits in a row. -/
def rowValues (cs : List Char) : List Nat := cs.filterMap decimalValue?

/-- What stands here does not continue a row of digits. -/
def EndsRow (rest : List Char) : Prop := ∀ c ∈ rest.head?, isDecimal c = false ∧ c ≠ '_'

theorem endsRow_nil : EndsRow [] := by
  intro c hc
  cases hc

theorem endsRow_cons {c : Char} {cs : List Char} (h : isDecimal c = false) (hc : c ≠ '_') :
    EndsRow (c :: cs) := by
  intro d hd
  cases hd
  exact ⟨h, hc⟩

theorem rowValues_cons {c : Char} {cs : List Char} {digit : Nat}
    (h : decimalValue? c = some digit) : rowValues (c :: cs) = digit :: rowValues cs :=
  List.filterMap_cons_some h

theorem moreDigits_of_endsRow {rest : List Char} (h : EndsRow rest) :
    moreDigits rest = ([], rest) := by
  cases rest with
  | nil => rfl
  | cons c cs =>
    obtain ⟨hdecimal, hc⟩ := h c rfl
    rw [isDecimal, Option.isSome_eq_false_iff, Option.isNone_iff_eq_none] at hdecimal
    rw [moreDigits.eq_def]
    simp [hdecimal, hc]

theorem digitRun_of_endsRow {rest : List Char} (h : EndsRow rest) : digitRun rest = ([], rest) := by
  cases rest with
  | nil => rfl
  | cons c cs =>
    have hdecimal := (h c rfl).1
    rw [isDecimal, Option.isSome_eq_false_iff, Option.isNone_iff_eq_none] at hdecimal
    rw [digitRun, hdecimal]

theorem moreDigits_append {cs rest : List Char} (hcs : ∀ c ∈ cs, isDecimal c = true)
    (hrest : EndsRow rest) : moreDigits (cs ++ rest) = (rowValues cs, rest) := by
  induction cs with
  | nil => exact moreDigits_of_endsRow hrest
  | cons c cs ih =>
    obtain ⟨digit, hdigit⟩ := Option.isSome_iff_exists.1 (hcs c List.mem_cons_self)
    rw [List.cons_append, moreDigits.eq_def, rowValues_cons hdigit]
    simp only [hdigit, ih fun d hd => hcs d (List.mem_cons_of_mem c hd)]

/-- A row of digits is read to its end, whatever follows that does not continue it. -/
theorem digitRun_append {cs rest : List Char} (hcs : ∀ c ∈ cs, isDecimal c = true)
    (hrest : EndsRow rest) : digitRun (cs ++ rest) = (rowValues cs, rest) := by
  cases cs with
  | nil => exact digitRun_of_endsRow hrest
  | cons c cs =>
    obtain ⟨digit, hdigit⟩ := Option.isSome_iff_exists.1 (hcs c List.mem_cons_self)
    rw [List.cons_append, digitRun, hdigit, rowValues_cons hdigit]
    simp only [moreDigits_append (fun d hd => hcs d (List.mem_cons_of_mem c hd)) hrest]

theorem rowValues_eq_nil {cs : List Char} (hcs : ∀ c ∈ cs, isDecimal c = true) :
    rowValues cs = [] ↔ cs = [] := by
  cases cs with
  | nil => exact ⟨fun _ => rfl, fun _ => rfl⟩
  | cons c cs =>
    obtain ⟨digit, hdigit⟩ := Option.isSome_iff_exists.1 (hcs c List.mem_cons_self)
    rw [rowValues_cons hdigit]
    exact ⟨fun h => (List.cons_ne_nil _ _ h).elim, fun h => (List.cons_ne_nil _ _ h).elim⟩

theorem rowValues_append (as bs : List Char) :
    rowValues (as ++ bs) = rowValues as ++ rowValues bs :=
  List.filterMap_append

theorem length_rowValues {cs : List Char} (hcs : ∀ c ∈ cs, isDecimal c = true) :
    (rowValues cs).length = cs.length := by
  induction cs with
  | nil => rfl
  | cons c cs ih =>
    obtain ⟨digit, hdigit⟩ := Option.isSome_iff_exists.1 (hcs c List.mem_cons_self)
    rw [rowValues_cons hdigit, List.length_cons, List.length_cons,
      ih fun d hd => hcs d (List.mem_cons_of_mem c hd)]

/-! ## Numerals -/

/-- The text of a sign: none, a plus, or a minus. -/
inductive SignText : Bool → List Char → Prop where
  | none : SignText false []
  | plus : SignText false ['+']
  | minus : SignText true ['-']

/-- The text starts with a character that is not a sign. -/
def Unsigned (cs : List Char) : Prop := ∀ c ∈ cs.head?, c ≠ '-' ∧ c ≠ '+'

theorem signed_append {negative : Bool} {sign body : List Char} (hsign : SignText negative sign)
    (hbody : Unsigned body) : signed (sign ++ body) = (negative, body) := by
  cases hsign with
  | plus | minus => rfl
  | none =>
    cases body with
    | nil => rfl
    | cons c cs =>
      obtain ⟨hminus, hplus⟩ := hbody c rfl
      show signed (c :: cs) = (false, c :: cs)
      unfold signed
      split
      · next heq => exact absurd (List.cons.inj heq).1 hminus
      · next heq => exact absurd (List.cons.inj heq).1 hplus
      · rfl

theorem mantissa_whole {whole rest : List Char} (hwhole : ∀ c ∈ whole, isDecimal c = true)
    (hrest : EndsRow rest) (hpoint : ∀ c ∈ rest.head?, c ≠ '.') :
    mantissa (whole ++ rest) = (rowValues whole, [], rest) := by
  unfold mantissa
  rw [digitRun_append hwhole hrest]
  cases rest with
  | nil => rfl
  | cons c cs =>
    have hc := hpoint c rfl
    split
    · next heq => exact absurd (List.cons.inj (Prod.mk.inj heq).2).1 hc
    · next heq =>
      obtain ⟨rfl, rfl⟩ := Prod.mk.inj heq
      rfl

theorem mantissa_point {whole fraction rest : List Char}
    (hwhole : ∀ c ∈ whole, isDecimal c = true) (hfraction : ∀ c ∈ fraction, isDecimal c = true)
    (hrest : EndsRow rest) :
    mantissa (whole ++ '.' :: (fraction ++ rest)) =
      (rowValues whole, rowValues fraction, rest) := by
  unfold mantissa
  rw [digitRun_append hwhole (endsRow_cons (by decide) (by decide))]
  simp only [digitRun_append hfraction hrest]

/-- The text starts like a numeral, and not like the name of a number. -/
def StartsNumeral (cs : List Char) : Prop := ∀ c ∈ cs.head?, isDecimal c = true ∨ c = '.'

theorem StartsNumeral.unsigned {cs : List Char} (h : StartsNumeral cs) : Unsigned cs := by
  intro c hc
  cases h c hc with
  | inl hdecimal => constructor <;> rintro rfl <;> exact absurd hdecimal (by decide)
  | inr hpoint => subst hpoint; decide

/-- A decimal digit is no letter, and lower case changes letters only. -/
theorem toLower_of_isDecimal {c : Char} (h : isDecimal c = true) :
    c.toLower = c ∧ c.isAlpha = false := by
  have hrange := isDecimal_range h
  constructor
  · refine dif_neg fun hupper => ?_
    have hletter : 0x41 ≤ c.toNat ∧ c.toNat ≤ 0x5a := hupper
    omega
  · apply Bool.eq_false_iff.2
    intro halpha
    rw [isAlpha_iff, isUpper_iff, isLower_iff] at halpha
    omega

/-- A numeral is not the name of a number. -/
theorem StartsNumeral.lowerAscii_ne {cs : List Char} (h : StartsNumeral cs) {name : List Char}
    (first : Char) (hfirst : first.isAlpha = true) : lowerAscii cs ≠ first :: name := by
  intro hname
  cases cs with
  | nil => cases hname
  | cons c cs =>
    have hc : c.toLower = first := (List.cons.inj hname).1
    cases h c rfl with
    | inl hdecimal =>
      obtain ⟨hlower, halpha⟩ := toLower_of_isDecimal hdecimal
      rw [← hc, hlower, halpha] at hfirst
      cases hfirst
    | inr hpoint =>
      subst hpoint
      rw [← hc] at hfirst
      exact absurd hfirst (by decide)

/-- A double is read from its sign, its digits and its exponent. -/
theorem readDouble?_of_mantissa {s : String} {negative : Bool} {sign body rest : List Char}
    {whole fraction : List Nat} {exponent : Int} (hs : s.toList = sign ++ body)
    (hsign : SignText negative sign) (hblank : ∀ c ∈ sign ++ body, isBlank c = false)
    (hbody : StartsNumeral body)
    (hmantissa : mantissa body = (whole, fraction, rest)) (hdigits : whole ++ fraction ≠ [])
    (hexponent : readExponent? rest = some exponent) :
    readDouble? s =
      some (Double.ofDecimal negative (digitsValue (whole ++ fraction))
        (exponent - fraction.length)) := by
  have hstrip : stripWhile isNumberBlank (sign ++ body) = sign ++ body :=
    stripWhile_eq_self fun c hc => isNumberBlank_le (hblank c hc)
  unfold readDouble?
  rw [hs, hstrip, signed_append hsign hbody.unsigned]
  -- The names of infinity and of what is no number start with letters.
  simp only [hbody.lowerAscii_ne 'n' (by decide),
    hbody.lowerAscii_ne 'i' (by decide), or_self, if_false, hmantissa]
  split
  · next heq =>
    obtain ⟨hwhole, hrest⟩ := Prod.mk.inj heq
    obtain ⟨hfraction, -⟩ := Prod.mk.inj hrest
    rw [hwhole, hfraction] at hdigits
    exact absurd rfl hdigits
  · next heq =>
    obtain ⟨rfl, hrest⟩ := Prod.mk.inj heq
    obtain ⟨rfl, rfl⟩ := Prod.mk.inj hrest
    rw [hexponent]
    rfl

end ChartStyle.Text
