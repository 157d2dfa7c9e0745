import ChartStyle.Instruction.Parser
import ChartStyle.Instruction.Print
import ChartStyle.Proofs.ExactRounding
import ChartStyle.Proofs.NumeralReading
import ChartStyle.Proofs.SplitParts
import ChartStyle.Proofs.Trimming
import Mathlib.Data.List.TakeWhile

/-!
# The spellings of an argument

`Argument.Token` says how an argument is written: a whole number or a decimal, an attribute code, a
word, or a string between quotes that it does not hold. Blanks may stand around a token. Every
spelling is read back as the argument that it spells (`Argument.Spelling.parse_eq`), and no spelling
is cut at a comma or a semicolon (`Argument.Spelling.neutral`).
-/

set_option autoImplicit false

namespace ChartStyle

/-! ## Characters of a token -/

/-- A character with no meaning of its own: no blank, quote, parenthesis or separator. -/
def isBare (c : Char) : Bool := !Text.isBlank c && Scan.isPlain c && c != ',' && c != ';'

theorem isBare_of_isDecimal {c : Char} (h : Text.isDecimal c = true) : isBare c = true := by
  have hdigits : ∀ start ∈ Text.decimalZeros, ∀ digit < 10,
      isBare (Char.ofNat (start + digit)) = true := by decide +kernel
  obtain ⟨start, hstart, digit, hdigit, hc⟩ := Text.exists_zero_of_isDecimal h
  have hbare := hdigits start hstart digit hdigit
  rwa [← hc, Char.ofNat_toNat] at hbare

theorem toNat_lt_of_isWordChar {c : Char} (h : isWordChar c = true) : c.toNat < 0x80 := by
  simp only [isWordChar, Char.isAlphanum, Bool.or_eq_true, beq_iff_eq, Text.isAlpha_iff,
    Text.isUpper_iff, Text.isLower_iff, Text.isDigit_iff] at h
  cases h with
  | inl h => omega
  | inr h => subst h; decide

theorem isBare_of_isWordChar {c : Char} (h : isWordChar c = true) : isBare c = true := by
  have hascii : ∀ n < 0x80, isWordChar (Char.ofNat n) = true → isBare (Char.ofNat n) = true := by
    decide +kernel
  exact Text.forall_ascii (P := fun c => isWordChar c = true → isBare c = true) hascii
    (toNat_lt_of_isWordChar h) h

theorem isWordChar_of_isUpper {c : Char} (h : c.isUpper = true) : isWordChar c = true := by
  simp [isWordChar, Char.isAlphanum, Text.isAlpha_iff, h]

theorem isDigit_of_isUpper {c : Char} (h : c.isUpper = true) : c.isDigit = false := by
  apply Bool.eq_false_iff.2
  intro hdigit
  rw [Text.isUpper_iff] at h
  rw [Text.isDigit_iff] at hdigit
  omega

theorem isBlank_of_isBare {c : Char} (h : isBare c = true) : Text.isBlank c = false := by
  simp only [isBare, Bool.and_eq_true, Bool.not_eq_eq_eq_not, Bool.not_true] at h
  exact h.1.1.1

theorem isBare_of_signText {negative : Bool} {sign : List Char}
    (h : Text.SignText negative sign) : ∀ c ∈ sign, isBare c = true := by
  cases h with
  | none => simp
  | plus | minus =>
    intro c hc
    rw [List.mem_singleton] at hc
    subst hc
    decide

/-! ## Spellings -/

namespace Argument

/-- How an argument is written. -/
inductive Token : Argument → List Char → Prop where
  /-- A whole number up to `2 ^ 53`: a sign and digits. -/
  | whole {negative : Bool} {sign digits : List Char} {n : Nat}
      (hsign : Text.SignText negative sign) (hdigits : digits ≠ [])
      (hdecimal : ∀ c ∈ digits, Text.isDecimal c = true)
      (hvalue : Text.digitsValue (Text.rowValues digits) = n) (hbound : n ≤ 9007199254740992) :
      Token (.int (if negative then -(n : Int) else n)) (sign ++ digits)
  /-- A decimal with a point: it is the double that its text reads as. -/
  | decimal {negative : Bool} {sign whole fraction : List Char} {x : Double}
      (hsign : Text.SignText negative sign) (hdigits : whole ++ fraction ≠ [])
      (hwhole : ∀ c ∈ whole, Text.isDecimal c = true)
      (hfraction : ∀ c ∈ fraction, Text.isDecimal c = true)
      (hread : Text.readDouble? (String.ofList (sign ++ (whole ++ '.' :: fraction))) = some x) :
      Token (.literal (.real x)) (sign ++ (whole ++ '.' :: fraction))
  /-- An attribute code: six upper-case letters. -/
  | code {cs : List Char} (hlength : cs.length = 6) (hupper : ∀ c ∈ cs, c.isUpper = true) :
      Token (.attribute (String.ofList cs)) cs
  /-- A word that is neither a number nor an attribute code. -/
  | word {cs : List Char} (hword : ∀ c ∈ cs, isWordChar c = true)
      (hnumber : ∃ c ∈ cs, c.isDigit = false)
      (hcode : ¬ (cs.length = 6 ∧ ∀ c ∈ cs, c.isUpper = true)) :
      Token (.text (String.ofList cs)) cs
  /-- Any text between two equal quotes that it does not hold. -/
  | quoted {quote : Char} {contents : List Char} (hquote : Scan.isQuote quote = true)
      (hcontents : quote ∉ contents) :
      Token (.text (String.ofList contents)) (quote :: contents ++ [quote])

/-- A token with blanks around it. -/
inductive Spelling : Argument → List Char → Prop where
  | mk {a : Argument} {before token after : List Char} (hbefore : Blanks before)
      (htoken : Token a token) (hafter : Blanks after) : Spelling a (before ++ token ++ after)

end Argument

/-! ## Blanks around a token -/

theorem tight_of_isBare {token : List Char} (hne : token ≠ []) (h : ∀ c ∈ token, isBare c = true) :
    Tight token := by
  exact ⟨hne, fun c hc => isBlank_of_isBare (h c (List.mem_of_mem_head? hc)),
    fun c hc => isBlank_of_isBare (h c (List.mem_of_getLast? hc))⟩

theorem isBlank_of_isQuote {c : Char} (h : Scan.isQuote c = true) : Text.isBlank c = false := by
  simp only [Scan.isQuote, Bool.or_eq_true, beq_iff_eq] at h
  rcases h with rfl | rfl <;> decide

theorem tight_quoted {quote : Char} (hquote : Scan.isQuote quote = true) (contents : List Char) :
    Tight (quote :: contents ++ [quote]) := by
  refine ⟨List.cons_ne_nil _ _, ?_, ?_⟩
  · intro c hc
    cases hc
    exact isBlank_of_isQuote hquote
  · intro c hc
    rw [List.getLast?_concat] at hc
    cases hc
    exact isBlank_of_isQuote hquote

/-! ## Tokens in a scan -/

/-- The two separators of instruction strings. -/
def IsSeparator (c : Char) : Prop := c = ',' ∨ c = ';'

theorem neutral_of_isBare {separator : Char} (hseparator : IsSeparator separator)
    {cs : List Char} (h : ∀ c ∈ cs, isBare c = true) : Neutral separator cs := by
  refine Neutral.plain fun c hc => ?_
  have hbare := h c hc
  simp only [isBare, Bool.and_eq_true, bne_iff_ne] at hbare
  refine ⟨hbare.1.1.2, ?_⟩
  rcases hseparator with rfl | rfl
  · exact hbare.1.2
  · exact hbare.2

theorem neutral_of_blanks {separator : Char} (hseparator : IsSeparator separator)
    {cs : List Char} (h : Blanks cs) : Neutral separator cs := by
  refine Neutral.plain fun c hc => ?_
  have hne {d : Char} (hd : Text.isBlank d = false) : c ≠ d := by
    rintro rfl
    rw [h c hc] at hd
    cases hd
  constructor
  · simp [Scan.isPlain, Scan.isQuote, hne (d := '\'') (by decide), hne (d := '"') (by decide),
      hne (d := '(') (by decide), hne (d := ')') (by decide)]
  · rcases hseparator with rfl | rfl
    · exact hne (by decide)
    · exact hne (by decide)

namespace Argument

theorem isBare_whole {negative : Bool} {sign digits : List Char}
    (hsign : Text.SignText negative sign) (hdecimal : ∀ c ∈ digits, Text.isDecimal c = true) :
    ∀ c ∈ sign ++ digits, isBare c = true := by
  intro c hc
  cases List.mem_append.1 hc with
  | inl hc => exact isBare_of_signText hsign c hc
  | inr hc => exact isBare_of_isDecimal (hdecimal c hc)

theorem isBare_decimal {negative : Bool} {sign whole fraction : List Char}
    (hsign : Text.SignText negative sign) (hwhole : ∀ c ∈ whole, Text.isDecimal c = true)
    (hfraction : ∀ c ∈ fraction, Text.isDecimal c = true) :
    ∀ c ∈ sign ++ (whole ++ '.' :: fraction), isBare c = true := by
  intro c hc
  simp only [List.mem_append, List.mem_cons] at hc
  rcases hc with hc | hc | rfl | hc
  · exact isBare_of_signText hsign c hc
  · exact isBare_of_isDecimal (hwhole c hc)
  · decide
  · exact isBare_of_isDecimal (hfraction c hc)

theorem isBare_word {cs : List Char} (hword : ∀ c ∈ cs, isWordChar c = true) :
    ∀ c ∈ cs, isBare c = true := fun c hc => isBare_of_isWordChar (hword c hc)

theorem isWordChar_code {cs : List Char} (hupper : ∀ c ∈ cs, c.isUpper = true) :
    ∀ c ∈ cs, isWordChar c = true := fun c hc => isWordChar_of_isUpper (hupper c hc)

/-- A token is made of bare characters, or it is a quoted string. -/
theorem Token.shape {a : Argument} {token : List Char} (h : Token a token) :
    (token ≠ [] ∧ ∀ c ∈ token, isBare c = true) ∨
      ∃ quote contents, Scan.isQuote quote = true ∧ quote ∉ contents ∧
        token = quote :: contents ++ [quote] := by
  cases h with
  | whole hsign hdigits hdecimal _ _ =>
    exact .inl ⟨List.append_ne_nil_of_right_ne_nil _ hdigits, isBare_whole hsign hdecimal⟩
  | decimal hsign _ hwhole hfraction _ =>
    exact .inl ⟨by simp, isBare_decimal hsign hwhole hfraction⟩
  | code hlength hupper =>
    refine .inl ⟨?_, isBare_word (isWordChar_code hupper)⟩
    rintro rfl
    cases hlength
  | word hword hnumber _ =>
    refine .inl ⟨?_, isBare_word hword⟩
    rintro rfl
    obtain ⟨c, hc, -⟩ := hnumber
    cases hc
  | quoted hquote hcontents => exact .inr ⟨_, _, hquote, hcontents, rfl⟩

theorem Token.tight {a : Argument} {token : List Char} (h : Token a token) : Tight token := by
  rcases h.shape with ⟨hne, hbare⟩ | ⟨quote, contents, hquote, -, rfl⟩
  · exact tight_of_isBare hne hbare
  · exact tight_quoted hquote contents

/-- No spelling of an argument is cut at a separator. -/
theorem Spelling.neutral {a : Argument} {cs : List Char} (h : Spelling a cs) {separator : Char}
    (hseparator : IsSeparator separator) : Neutral separator cs := by
  cases h with
  | mk hbefore htoken hafter =>
    refine ((neutral_of_blanks hseparator hbefore).append ?_).append
      (neutral_of_blanks hseparator hafter)
    rcases htoken.shape with ⟨-, hbare⟩ | ⟨quote, contents, hquote, hcontents, rfl⟩
    · exact neutral_of_isBare hseparator hbare
    · exact Neutral.quoted hquote hcontents

/-! ## Reading tokens -/

theorem unquoted?_quoted {quote : Char} (hquote : Scan.isQuote quote = true)
    (contents : List Char) : unquoted? (quote :: contents ++ [quote]) = some contents := by
  cases contents with
  | nil => simp [unquoted?, hquote]
  | cons c cs =>
    have hlast : (c :: (cs ++ [quote])).getLast? = some quote := List.getLast?_concat (l := c :: cs)
    have hinit : (c :: (cs ++ [quote])).dropLast = c :: cs := by
      rw [← List.cons_append, List.dropLast_concat]
    simp only [List.cons_append, unquoted?, hquote, hlast, hinit]
    simp

theorem unquoted?_bare {cs : List Char} (h : ∀ c ∈ cs, isBare c = true) : unquoted? cs = none := by
  rcases cs with _ | ⟨q, _ | ⟨c, cs⟩⟩
  · rfl
  · rfl
  · have hbare := h q List.mem_cons_self
    simp only [isBare, Scan.isPlain, Bool.and_eq_true, Bool.not_eq_eq_eq_not, Bool.not_true]
      at hbare
    simp [unquoted?, hbare.1.1.2.1.1]

theorem unsigned_of_isDecimal {cs : List Char} (h : ∀ c ∈ cs, Text.isDecimal c = true) :
    Text.Unsigned cs :=
  Text.StartsNumeral.unsigned fun c hc => .inl (h c (List.mem_of_mem_head? hc))

theorem numeral?_whole {negative : Bool} {sign digits : List Char}
    (hsign : Text.SignText negative sign) (hdigits : digits ≠ [])
    (hdecimal : ∀ c ∈ digits, Text.isDecimal c = true) :
    numeral? (sign ++ digits) = some (negative, digits, none) := by
  obtain ⟨htake, hdrop⟩ := Text.span_isDecimal hdecimal [] (by simp)
  rw [List.append_nil] at htake hdrop
  unfold numeral?
  rw [Text.signed_append hsign (unsigned_of_isDecimal hdecimal)]
  simp only [htake, hdrop]
  exact if_neg (by simp [hdigits])

theorem startsNumeral_point {whole : List Char} (hwhole : ∀ c ∈ whole, Text.isDecimal c = true)
    (fraction : List Char) : Text.StartsNumeral (whole ++ '.' :: fraction) := by
  intro c hc
  cases whole with
  | nil =>
    cases hc
    exact .inr rfl
  | cons d ds =>
    rw [List.cons_append, List.head?_cons, Option.mem_some_iff] at hc
    exact .inl (hc ▸ hwhole d List.mem_cons_self)

theorem numeral?_decimal {negative : Bool} {sign whole fraction : List Char}
    (hsign : Text.SignText negative sign) (hdigits : whole ++ fraction ≠ [])
    (hwhole : ∀ c ∈ whole, Text.isDecimal c = true)
    (hfraction : ∀ c ∈ fraction, Text.isDecimal c = true) :
    numeral? (sign ++ (whole ++ '.' :: fraction)) = some (negative, whole, some fraction) := by
  obtain ⟨htake, hdrop⟩ := Text.span_isDecimal hwhole ('.' :: fraction) (by simp; decide)
  have hall : (fraction.all Text.isDecimal && !(whole.isEmpty && fraction.isEmpty)) = true := by
    rw [List.all_eq_true.2 hfraction, Bool.true_and, Bool.not_eq_true', Bool.eq_false_iff]
    simpa using hdigits
  unfold numeral?
  rw [Text.signed_append hsign (startsNumeral_point hwhole fraction).unsigned]
  simp only [htake, hdrop]
  exact if_pos hall

/-- A whole number that is a double is not rounded on the way. -/
theorem number?_onGrid {negative : Bool} {sign digits : List Char} {n : Nat}
    {place : Fin Double.placeCount} (hsign : Text.SignText negative sign) (hdigits : digits ≠ [])
    (hdecimal : ∀ c ∈ digits, Text.isDecimal c = true)
    (hvalue : Text.digitsValue (Text.rowValues digits) = n)
    (hplace : Double.magnitudeAt place = n * Double.unitsPerOne) :
    number? (sign ++ digits) = some (.int (if negative then -(n : Int) else n)) := by
  obtain ⟨hwhole, htruncate⟩ := Double.isWhole_onGrid negative hplace
  rw [← Double.ofDecimal_onGrid negative hplace] at hwhole htruncate
  unfold number?
  rw [numeral?_whole hsign hdigits hdecimal]
  have hvalue' : Text.digitsValue (digits.filterMap Text.decimalValue?) = n := hvalue
  simp only [Option.map_some, Option.getD_none, List.append_nil, List.length_nil,
    Option.isNone_none, Bool.true_and, hvalue']
  show some (if (Double.ofDecimal negative n 0).isWhole then
    Value.int (Double.ofDecimal negative n 0).truncate else _) = _
  rw [hwhole, if_pos rfl, htruncate]

/-- A decimal is the double that its text reads as. -/
theorem number?_decimal {negative : Bool} {sign whole fraction : List Char}
    (hsign : Text.SignText negative sign) (hdigits : whole ++ fraction ≠ [])
    (hwhole : ∀ c ∈ whole, Text.isDecimal c = true)
    (hfraction : ∀ c ∈ fraction, Text.isDecimal c = true) :
    number? (sign ++ (whole ++ '.' :: fraction)) =
      (Text.readDouble? (String.ofList (sign ++ (whole ++ '.' :: fraction)))).map .real := by
  have hblank : ∀ c ∈ sign ++ (whole ++ '.' :: fraction), Text.isBlank c = false := by
    intro c hc
    simp only [List.mem_append, List.mem_cons] at hc
    rcases hc with hc | hc | rfl | hc
    · exact isBlank_of_isBare (isBare_of_signText hsign c hc)
    · exact Text.isBlank_of_isDecimal (hwhole c hc)
    · decide
    · exact Text.isBlank_of_isDecimal (hfraction c hc)
  have hmantissa := Text.mantissa_point hwhole hfraction Text.endsRow_nil
  rw [List.append_nil] at hmantissa
  have hrow : Text.rowValues whole ++ Text.rowValues fraction ≠ [] := by
    rw [← Text.rowValues_append]
    refine mt (Text.rowValues_eq_nil fun c hc => ?_).1 hdigits
    exact (List.mem_append.1 hc).elim (hwhole c) (hfraction c)
  rw [Text.readDouble?_of_mantissa String.toList_ofList hsign hblank
    (startsNumeral_point hwhole fraction) hmantissa hrow rfl, ← Text.rowValues_append,
    Text.length_rowValues hfraction, Int.zero_sub]
  unfold number?
  rw [numeral?_decimal hsign hdigits hwhole hfraction]
  rfl

/-- A word with a character that is not a digit is not a number. -/
theorem number?_word {cs : List Char} (hword : ∀ c ∈ cs, isWordChar c = true)
    (hnumber : ∃ c ∈ cs, c.isDigit = false) : number? cs = none := by
  have hne {c : Char} (hc : c ∈ cs) {d : Char} (hd : isWordChar d = false) : c ≠ d := by
    rintro rfl
    rw [hword c hc] at hd
    cases hd
  have hunsigned : Text.Unsigned cs := fun c hc =>
    ⟨hne (List.mem_of_mem_head? hc) (by decide), hne (List.mem_of_mem_head? hc) (by decide)⟩
  have hsigned := Text.signed_append .none hunsigned
  rw [List.nil_append] at hsigned
  have hnumeral : numeral? cs = none := by
    unfold numeral?
    rw [hsigned]
    -- Behind its digits a word goes on with a letter or an underscore, never with a point.
    cases hrest : cs.dropWhile Text.isDecimal with
    | nil =>
      obtain ⟨c, hc, hdigit⟩ := hnumber
      have hdecimal := List.dropWhile_eq_nil_iff.1 hrest c hc
      rw [Text.isDecimal_iff_isDigit (toNat_lt_of_isWordChar (hword c hc)), hdigit] at hdecimal
      cases hdecimal
    | cons c rest =>
      have hc : c ∈ cs := (List.dropWhile_suffix Text.isDecimal).subset (hrest ▸ List.mem_cons_self)
      have hpoint := hne hc (d := '.') (by decide)
      simp only [hrest]
      split
      · next heq => cases heq
      · next heq => exact absurd (List.cons.inj heq).1 hpoint
      · rfl
  rw [number?, hnumeral, Option.map_none]

theorem parse_of_token {cs token : List Char} (htrim : Text.trim cs = token) (hne : token ≠ []) :
    parse cs =
      match unquoted? token with
      | some contents => .ok (.text (String.ofList contents))
      | none =>
        match number? token with
        | some v => .ok (.literal v)
        | none =>
          if isAttributeCode token then .ok (.attribute (String.ofList token))
          else .ok (.text (String.ofList token)) := by
  unfold parse
  rw [htrim]
  cases token with
  | nil => exact absurd rfl hne
  | cons c cs => rfl

/-- Every spelling of an argument is read as that argument. -/
theorem Spelling.parse_eq {a : Argument} {cs : List Char} (h : Spelling a cs) :
    parse cs = .ok a := by
  cases h with
  | @mk before token after hbefore htoken hafter =>
  rw [parse_of_token (trim_eq hbefore htoken.tight hafter) htoken.tight.ne_nil]
  -- The reader tries quotes, numbers and codes in this order; each kind of token fails all before
  -- its own.
  cases htoken with
  | whole hsign hdigits hdecimal hvalue hbound =>
    -- Up to `2 ^ 53` every whole number is a double.
    obtain ⟨place, hplace⟩ := Double.exists_magnitudeAt_whole hbound
    rw [unquoted?_bare (isBare_whole hsign hdecimal),
      number?_onGrid hsign hdigits hdecimal hvalue hplace]
    rfl
  | decimal hsign hdigits hwhole hfraction hread =>
    rw [unquoted?_bare (isBare_decimal hsign hwhole hfraction),
      number?_decimal hsign hdigits hwhole hfraction, hread]
    rfl
  | code hlength hupper =>
    have hne : token ≠ [] := by
      rintro rfl
      cases hlength
    obtain ⟨c, hc⟩ := List.exists_mem_of_ne_nil token hne
    have hcode : isAttributeCode token = true := by
      rw [isAttributeCode, hlength, List.all_eq_true.2 hupper]
      rfl
    rw [unquoted?_bare (isBare_word (isWordChar_code hupper)),
      number?_word (isWordChar_code hupper) ⟨c, hc, isDigit_of_isUpper (hupper c hc)⟩]
    exact if_pos hcode
  | word hword hnumber hcode =>
    have hcode' : ¬ isAttributeCode token = true := by
      rw [isAttributeCode, Bool.and_eq_true, beq_iff_eq, List.all_eq_true]
      exact hcode
    rw [unquoted?_bare (isBare_word hword), number?_word hword hnumber]
    exact if_neg hcode'
  | @quoted quote contents hquote hcontents =>
    rw [unquoted?_quoted hquote contents]

/-- A token is read as the argument that it writes. -/
theorem Token.parse_eq {a : Argument} {token : List Char} (h : Token a token) :
    parse token = .ok a := by
  have hnil : Blanks [] := fun c hc => absurd hc List.not_mem_nil
  have hread := (Spelling.mk hnil h hnil).parse_eq
  rwa [List.nil_append, List.append_nil] at hread

end Argument

end ChartStyle
