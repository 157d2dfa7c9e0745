import ChartStyle.Proofs.NumberText
import ChartStyle.Proofs.ReadCalls
import ChartStyle.Proofs.WholeNumbers

/-!
# Arguments written and read again

`Argument.print` puts a text in quotes when its characters ask for it, and every other argument
stands as it is. `Argument.parse` asks for the shape of the whole token, so not every argument that
was read is written in a way that reads as itself: just the faithful ones are
(`Argument.parse_print_iff`). A text that is all digits reads as a number, one of six upper-case
letters as an attribute, one with a line feed at its end without it, and a double that is written
with an exponent reads as a text.
-/

set_option autoImplicit false

namespace ChartStyle

/-! ## Doubles written in full -/

/-- The double is finite and written without an exponent. -/
def Double.WrittenInFull (x : Double) : Prop :=
  x.isFinite = true ∧ -4 ≤ Layout.pointOf x.shortest - 1 ∧
    Layout.pointOf x.shortest - 1 < Layout.full.scientificFrom

instance (x : Double) : Decidable x.WrittenInFull := by
  unfold Double.WrittenInFull
  infer_instance

namespace Double

/-- A double that is written in full is a sign, digits, a point and digits. -/
theorem toText_parts {x : Double} (h : x.WrittenInFull) :
    ∃ negative sign whole fraction, Text.SignText negative sign ∧ AsciiDigits whole ∧ whole ≠ [] ∧
      AsciiDigits fraction ∧ x.toText.toList = sign ++ (whole ++ '.' :: fraction) := by
  obtain ⟨hfinite, hfull⟩ := h
  cases x with
  | nan | infinite _ => cases hfinite
  | finite negative place =>
    obtain ⟨whole, fraction, hwhole, hne, hfraction, htext, -⟩ :=
      Layout.positional_parts (Layout.pointOf (finite negative place).shortest)
        (Layout.asciiDigits_significantDigits _)
        (Layout.toDigits_eq_significantDigits (finite negative place).shortest).1
    refine ⟨negative, _, whole, fraction, Layout.signText_write negative, hwhole, hne, hfraction, ?_⟩
    rw [toText, Layout.write_eq, if_pos hfull, String.toList_append, htext]

/-- The text of any other double holds a letter. -/
theorem exists_letter_toText {x : Double} (h : ¬ x.WrittenInFull) :
    'e' ∈ x.toText.toList ∨ 'n' ∈ x.toText.toList := by
  cases x with
  | nan => exact .inr (by decide)
  | infinite negative => cases negative <;> exact .inr (by decide)
  | finite negative place =>
    have hexponent : ¬ (-4 ≤ Layout.pointOf (finite negative place).shortest - 1 ∧
        Layout.pointOf (finite negative place).shortest - 1 < Layout.full.scientificFrom) :=
      fun hfull => h ⟨rfl, hfull⟩
    obtain ⟨_, _, -, -, -, -, htext⟩ :=
      Layout.exponentText_parts (Layout.pointOf (finite negative place).shortest - 1)
    refine .inl ?_
    rw [toText, Layout.write_eq, if_neg hexponent, Layout.scientific]
    simp only [String.toList_append, List.mem_append]
    exact .inr (.inr (htext ▸ List.mem_cons_self))

theorem isBare_scientific {digits : List Char} (hdigits : AsciiDigits digits) (exponent : Int) :
    ∀ c ∈ (Layout.scientific digits exponent).toList, isBare c = true := by
  obtain ⟨sign, figures, hsign, hfigures, -, -, htext⟩ := Layout.exponentText_parts exponent
  intro c hc
  rw [Layout.scientific, String.toList_append, String.toList_append, htext] at hc
  simp only [List.mem_append, List.mem_cons, String.toList_ofList] at hc
  rcases hc with (hc | hc) | rfl | hc | hc
  · exact isBare_of_isDecimal (hdigits.isDecimal c (List.mem_of_mem_take hc))
  · split at hc
    · simp only [String.toList_append, String.toList_ofList, List.mem_append] at hc
      rcases hc with hc | hc
      · cases List.mem_singleton.1 hc
        decide
      · exact isBare_of_isDecimal (hdigits.isDecimal c (List.mem_of_mem_drop hc))
    · exact absurd hc List.not_mem_nil
  · decide
  · exact isBare_of_signText hsign c hc
  · exact isBare_of_isDecimal (hfigures.isDecimal c hc)

/-- The text of a double has no blank, quote, parenthesis or separator. -/
theorem isBare_toText (x : Double) : ∀ c ∈ x.toText.toList, isBare c = true := by
  by_cases hfull : x.WrittenInFull
  · obtain ⟨negative, sign, whole, fraction, hsign, hwhole, -, hfraction, htext⟩ := toText_parts hfull
    rw [htext]
    exact Argument.isBare_decimal hsign hwhole.isDecimal hfraction.isDecimal
  · cases x with
    | nan => exact List.all_eq_true.1 (by decide)
    | infinite negative => cases negative <;> exact List.all_eq_true.1 (by decide)
    | finite negative place =>
      rw [toText, Layout.write_eq, if_neg fun h => hfull ⟨rfl, h⟩, String.toList_append]
      refine List.forall_mem_append.2 ⟨isBare_of_signText (Layout.signText_write negative), ?_⟩
      exact isBare_scientific (Layout.asciiDigits_significantDigits _) _

end Double

/-! ## Faithful arguments -/

namespace Argument

/-- Nothing in what is written for the argument makes the reader take it for something else: a text
without quotes is a word and no number or attribute code, and a double has no exponent. -/
def IsFaithful : Argument → Prop
  | .literal (.text s) => isBareWord s = true →
      (∀ c ∈ s.toList, isWordChar c = true) ∧ (∃ c ∈ s.toList, c.isDigit = false) ∧
        isAttributeCode s.toList = false
  | .literal (.real x) => x.WrittenInFull
  | _ => True

/-- A number that is read is a whole number that is a double, or a double. -/
theorem number?_cases {cs : List Char} {v : Value} (h : number? cs = some v) :
    (∃ (n : Int) (place : Fin Double.placeCount), v = .int n ∧
        Double.magnitudeAt place = n.natAbs * Double.unitsPerOne) ∨ ∃ x, v = .real x := by
  obtain ⟨⟨negative, whole, fraction⟩, -, hvalue⟩ := Option.map_eq_some_iff.1 h
  dsimp only at hvalue
  generalize Double.ofDecimal _ _ _ = x at hvalue
  split at hvalue
  · next hwhole =>
    rw [Bool.and_eq_true] at hwhole
    cases x with
    | nan | infinite _ => cases hwhole.2
    | finite negative place =>
      exact .inl ⟨_, place, hvalue.symm, Double.onGrid_of_isWhole hwhole.2⟩
  · exact .inr ⟨x, hvalue.symm⟩

theorem number?_ne_text {cs : List Char} (s : String) : number? cs ≠ some (.text s) := by
  intro h
  rcases number?_cases h with ⟨_, _, heq, -⟩ | ⟨_, heq⟩
  · cases heq
  · cases heq

/-- What was read as a literal number stands for a number as the reader knows them. -/
theorem number?_of_parse {cs : List Char} {v : Value} (h : parse cs = .ok (.literal v))
    (hv : ∀ s, v ≠ .text s) : number? (Text.trim cs) = some v := by
  rcases parse_cases h with ⟨contents, -, heq⟩ | ⟨w, hnumber, heq⟩ | ⟨-, heq⟩ | heq
  · cases heq
    exact absurd rfl (hv _)
  · cases heq
    exact hnumber
  · cases heq
  · cases heq
    exact absurd rfl (hv _)

/-! ## Whole numbers -/

theorem parse_bare {token : List Char} (hne : token ≠ []) (hbare : ∀ c ∈ token, isBare c = true) :
    parse token =
      match number? token with
      | some v => .ok (.literal v)
      | none =>
        if isAttributeCode token then .ok (.attribute (String.ofList token))
        else .ok (.text (String.ofList token)) := by
  have hread := parse_of_token (Trimmed.trim_eq (.inr (tight_of_isBare hne hbare))) hne
  rw [unquoted?_bare hbare] at hread
  exact hread

/-- The text of a whole number that is a double reads as the whole number. -/
theorem parse_toString {n : Int} {place : Fin Double.placeCount}
    (hplace : Double.magnitudeAt place = n.natAbs * Double.unitsPerOne) :
    parse (toString n).toList = .ok (.int n) := by
  obtain ⟨sign, hsign, htext⟩ := toList_toString n
  have hdigits := asciiDigits_toDigits n.natAbs
  have hbare := isBare_whole hsign hdigits.isDecimal
  have hvalue : Text.digitsValue (Text.rowValues (Nat.toDigits 10 n.natAbs)) = n.natAbs := by
    rw [digitsValue_rowValues hdigits, rowValue_toDigits]
  rw [htext, parse_bare (List.append_ne_nil_of_right_ne_nil _ Nat.toDigits_ne_nil) hbare,
    number?_onGrid hsign Nat.toDigits_ne_nil hdigits.isDecimal hvalue hplace, Double.signed_natAbs]
  rfl

/-! ## Doubles -/

theorem isNumeral_of_parse_real {cs : List Char} {x : Double}
    (h : parse cs = .ok (.literal (.real x))) :
    ∀ c ∈ cs, Text.isBlank c = true ∨ Text.isDecimal c = true ∨ c = '-' ∨ c = '+' ∨ c = '.' := by
  have hnumber := number?_of_parse h (by simp)
  obtain ⟨found, hfound, -⟩ := Option.map_eq_some_iff.1 hnumber
  exact fun c hc => (mem_trim hc).imp_right (mem_numeral? hfound c)

/-- The text of a double reads as the double when it is written in full, and only then. -/
theorem parse_toText_iff {x : Double} :
    parse x.toText.toList = .ok (.literal (.real x)) ↔ x.WrittenInFull := by
  constructor
  · intro h
    by_contra hfull
    -- A number is read from digits, signs and a point, and the text holds a letter.
    have hnumeral := isNumeral_of_parse_real h
    rcases Double.exists_letter_toText hfull with hc | hc
    · exact absurd (hnumeral _ hc) (by decide +kernel)
    · exact absurd (hnumeral _ hc) (by decide +kernel)
  · intro h
    obtain ⟨negative, sign, whole, fraction, hsign, hwhole, hne, hfraction, htext⟩ :=
      Double.toText_parts h
    have hread := Double.readDouble?_toText x
    rw [← String.ofList_toList (s := x.toText), htext] at hread
    have htoken : Token (.literal (.real x)) (sign ++ (whole ++ '.' :: fraction)) :=
      .decimal hsign (List.append_ne_nil_of_left_ne_nil hne _) hwhole.isDecimal
        hfraction.isDecimal hread
    rw [htext]
    exact htoken.parse_eq

/-! ## Texts -/

/-- A word that needs no quotes may have a line feed at its end. -/
theorem exists_word_of_isBareWord {s : String} (h : isBareWord s = true) :
    ∃ word ending, word ≠ [] ∧ (∀ c ∈ word, isWordChar c = true) ∧ Blanks ending ∧
      s.toList = word ++ ending := by
  have hline : Blanks ['\n'] := by decide
  have hnil : Blanks [] := by decide
  unfold isBareWord at h
  split at h
  · next before hreverse =>
    rw [Bool.and_eq_true, List.all_eq_true] at h
    refine ⟨before.reverse, ['\n'], by simpa using h.1, h.2, hline, ?_⟩
    rw [← List.reverse_reverse s.toList, hreverse, List.reverse_cons]
  -- Without a line feed the text itself is the word.
  · rw [Bool.and_eq_true, List.all_eq_true] at h
    exact ⟨s.toList, [], by simpa using h.1, h.2, hnil, (List.append_nil _).symm⟩

/-- A word is read as a text when one of its characters is not a digit and it is no code. -/
theorem parse_word_iff {word : List Char} (hne : word ≠ [])
    (hword : ∀ c ∈ word, isWordChar c = true) :
    parse word = .ok (.text (String.ofList word)) ↔
      (∃ c ∈ word, c.isDigit = false) ∧ isAttributeCode word = false := by
  have hbare := isBare_word hword
  rw [parse_bare hne hbare]
  -- The reader tries a number and a code first, and a word is a text when both fail.
  constructor
  · intro h
    cases hnumber : number? word with
    | some v =>
      rw [hnumber] at h
      cases h
      exact absurd hnumber (number?_ne_text _)
    | none =>
      simp only [hnumber] at h
      refine ⟨?_, ?_⟩
      · -- A word of digits alone would be read as a number.
        by_contra hdigits
        push Not at hdigits
        have hdecimal : ∀ c ∈ word, Text.isDecimal c = true := fun c hc =>
          Text.isDecimal_of_isDigit (by simpa using hdigits c hc)
        have hnumeral := numeral?_whole .none hne hdecimal
        rw [number?, Option.map_eq_none_iff] at hnumber
        rw [List.nil_append, hnumber] at hnumeral
        cases hnumeral
      · by_contra hcode
        rw [Bool.not_eq_false] at hcode
        rw [if_pos hcode] at h
        cases h
  · rintro ⟨hnumber, hcode⟩
    rw [number?_word hword hnumber]
    simp [hcode]

theorem print_bareWord {s : String} (h : isBareWord s = true) : print (.text s) = s := if_pos h

theorem print_quoted {s : String} (h : ¬ isBareWord s = true) :
    (print (.text s)).toList = '\'' :: s.toList ++ ['\''] := by
  show (if isBareWord s then s else "'" ++ s ++ "'").toList = _
  rw [if_neg h]
  simp

/-- What is written for a text reads as the text when the text is faithful, and only then. -/
theorem parse_print_text_iff (s : String) :
    parse (print (.text s)).toList = .ok (.text s) ↔ (Argument.text s).IsFaithful := by
  show _ ↔ (isBareWord s = true → _)
  by_cases hbare : isBareWord s = true
  · obtain ⟨word, ending, hne, hword, hending, hs⟩ := exists_word_of_isBareWord hbare
    have htrim : Text.trim s.toList = word := by
      have hnil : Blanks [] := by decide
      rw [hs]
      exact trim_eq hnil (tight_of_isBare hne (isBare_word hword)) hending
    rw [print_bareWord hbare, imp_iff_right hbare]
    constructor
    · intro h
      -- The reader takes the line feed off, so there was none.
      have heq : s.toList = word := by
        rcases parse_cases h with ⟨contents, hquoted, -⟩ | ⟨v, hnumber, heq⟩ | ⟨-, heq⟩ | heq
        · rw [htrim, unquoted?_bare (isBare_word hword)] at hquoted
          cases hquoted
        · cases heq
          exact absurd hnumber (number?_ne_text s)
        · cases heq
        · rw [htrim] at heq
          have hs' := Value.text.inj (Argument.literal.inj heq)
          rw [hs', String.toList_ofList]
      rw [heq, ← String.ofList_toList (s := s), heq, parse_word_iff hne hword] at h
      rw [heq]
      exact ⟨hword, h⟩
    · rintro ⟨hall, hnumber, hcode⟩
      have hne' : s.toList ≠ [] := by
        rw [hs]
        exact List.append_ne_nil_of_left_ne_nil hne _
      have hread := (parse_word_iff hne' hall).2 ⟨hnumber, hcode⟩
      rwa [String.ofList_toList] at hread
  · refine iff_of_true ?_ fun h => absurd h hbare
    have htrim : Text.trim ('\'' :: s.toList ++ ['\'']) = '\'' :: s.toList ++ ['\''] :=
      Trimmed.trim_eq (.inr (tight_quoted rfl s.toList))
    rw [print_quoted hbare, parse_of_token htrim (List.cons_ne_nil _ _), unquoted?_quoted rfl]
    simp only [String.ofList_toList]

/-! ## Arguments -/

/-- What is written for an argument that was read reads as the argument when this is faithful, and
only then. -/
theorem parse_print_iff {cs : List Char} {a : Argument} (h : parse cs = .ok a) :
    parse a.print.toList = .ok a ↔ a.IsFaithful := by
  cases isWritten_of_parse h with
  | text s => exact parse_print_text_iff s
  | int n =>
    rcases number?_cases (number?_of_parse h (by simp)) with ⟨_, place, heq, hplace⟩ | ⟨_, heq⟩
    · cases heq
      exact iff_of_true (parse_toString hplace) trivial
    · cases heq
  | real x => exact parse_toText_iff
  | @«attribute» code hlength hupper =>
    have hcode : Token (.attribute (String.ofList code.toList)) code.toList :=
      .code hlength fun c hc => decide_eq_true (hupper c hc)
    rw [String.ofList_toList] at hcode
    exact iff_of_true hcode.parse_eq trivial

/-! ## Commas -/

/-- Only a quoted text is written with characters that have a meaning. -/
theorem isBare_print {a : Argument} (ha : a.IsWritten) (htext : ∀ s, a ≠ .text s) :
    ∀ c ∈ a.print.toList, isBare c = true := by
  cases ha with
  | text s => exact absurd rfl (htext s)
  | int n =>
    obtain ⟨sign, hsign, heq⟩ := toList_toString n
    show ∀ c ∈ (toString n).toList, _
    rw [heq]
    exact isBare_whole hsign (asciiDigits_toDigits n.natAbs).isDecimal
  | real x => exact Double.isBare_toText x
  | «attribute» hlength hupper =>
    exact fun c hc => isBare_of_isWordChar (isWordChar_of_isUpper (decide_eq_true (hupper c hc)))

theorem count_comma_of_isBare {cs : List Char} (h : ∀ c ∈ cs, isBare c = true) : cs.count ',' = 0 :=
  List.count_eq_zero.2 fun hc => absurd (h ',' hc) (by decide)

theorem count_comma_trim (cs : List Char) : (Text.trim cs).count ',' = cs.count ',' := by
  have hdrop (cs : List Char) : (cs.dropWhile Text.isBlank).count ',' = cs.count ',' := by
    have hblank : (cs.takeWhile Text.isBlank).count ',' = 0 :=
      List.count_eq_zero.2 fun hc => absurd (List.mem_takeWhile_imp hc) (by decide)
    conv_rhs => rw [← List.takeWhile_append_dropWhile (p := Text.isBlank) (l := cs)]
    rw [List.count_append, hblank, Nat.zero_add]
  rw [Text.trim, Text.stripWhile, List.count_reverse, hdrop, List.count_reverse, hdrop]

theorem count_comma_print_text (s : String) :
    (print (.text s)).toList.count ',' = s.toList.count ',' := by
  by_cases hbare : isBareWord s = true
  · rw [print_bareWord hbare]
  · rw [print_quoted hbare]
    simp

/-- An argument is written with as many commas as it was read from. -/
theorem count_comma_print {cs : List Char} {a : Argument} (h : parse cs = .ok a) :
    a.print.toList.count ',' = cs.count ',' := by
  rw [← count_comma_trim cs]
  have hbare (htoken : ∀ c ∈ Text.trim cs, isBare c = true) (htext : ∀ s, a ≠ .text s) :
      a.print.toList.count ',' = (Text.trim cs).count ',' := by
    rw [count_comma_of_isBare (isBare_print (isWritten_of_parse h) htext),
      count_comma_of_isBare htoken]
  rcases parse_cases h with ⟨contents, hquoted, rfl⟩ | ⟨v, hnumber, rfl⟩ | ⟨hcode, rfl⟩ | rfl
  · obtain ⟨quote, hquote, htoken⟩ := eq_of_unquoted? hquoted
    have hne : quote ≠ ',' := by
      rintro rfl
      cases hquote
    rw [count_comma_print_text, String.toList_ofList, htoken]
    simp [hne]
  · obtain ⟨found, hfound, -⟩ := Option.map_eq_some_iff.1 hnumber
    refine hbare (fun c hc => ?_) fun s heq => ?_
    · rcases mem_numeral? hfound c hc with hdecimal | rfl | rfl | rfl
      · exact isBare_of_isDecimal hdecimal
      all_goals decide
    · exact number?_ne_text s (hnumber.trans (congrArg some (Argument.literal.inj heq)))
  · rw [isAttributeCode, Bool.and_eq_true, List.all_eq_true] at hcode
    refine hbare (isBare_word (isWordChar_code hcode.2)) fun s heq => ?_
    cases heq
  · rw [count_comma_print_text, String.toList_ofList]

end Argument

end ChartStyle
