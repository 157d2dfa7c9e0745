import ChartStyle.Lookup.Normal
import ChartStyle.Proofs.NumberText
import ChartStyle.Proofs.Trimming

/-!
# Normal forms are normal

The normal form of a value, read as a text, has itself as its normal form
(`Value.normalText_normalForm`): numbers read back as the number that they write, other texts keep
no blanks to take off, and a list of two items or more is never a number (`readDouble?_comma`).
-/

set_option autoImplicit false

namespace ChartStyle

/-! ## Texts of numbers -/

/-- No character is a blank. -/
def NoBlanks (cs : List Char) : Prop := ∀ c ∈ cs, Text.isBlank c = false

instance (cs : List Char) : Decidable (NoBlanks cs) :=
  List.decidableBAll (fun c => Text.isBlank c = false) cs

theorem noBlanks_append {as bs : List Char} (has : NoBlanks as) (hbs : NoBlanks bs) :
    NoBlanks (as ++ bs) := fun c hc => (List.mem_append.1 hc).elim (has c) (hbs c)

theorem AsciiDigits.noBlanks {cs : List Char} (h : AsciiDigits cs) : NoBlanks cs :=
  fun c hc => Text.isBlank_of_isDecimal (h.isDecimal c hc)

namespace Layout

theorem noBlanks_positional {digits : List Char} (hdigits : AsciiDigits digits) (point : Int) :
    NoBlanks (full.positional digits point).toList := by
  unfold positional
  split
  · simp only [String.toList_append, String.toList_ofList]
    exact noBlanks_append (by decide)
      (asciiDigits_append (asciiDigits_zeros _) hdigits).noBlanks
  · split
    · simp only [String.toList_append, String.toList_ofList]
      exact noBlanks_append (asciiDigits_append hdigits (asciiDigits_zeros _)).noBlanks (by decide)
    · simp only [String.toList_append, String.toList_ofList]
      refine noBlanks_append (noBlanks_append ?_ (by decide)) ?_
      · exact fun c hc => hdigits.noBlanks c (List.mem_of_mem_take hc)
      · exact fun c hc => hdigits.noBlanks c (List.mem_of_mem_drop hc)

theorem noBlanks_scientific {digits : List Char} (hdigits : AsciiDigits digits) (exponent : Int) :
    NoBlanks (scientific digits exponent).toList := by
  unfold scientific
  simp only [String.toList_append, String.toList_ofList]
  refine noBlanks_append (noBlanks_append ?_ ?_) (exponentText_exponentText exponent).noBlank
  · exact fun c hc => hdigits.noBlanks c (List.mem_of_mem_take hc)
  · split
    · simp only [String.toList_append, String.toList_ofList]
      refine noBlanks_append (by decide) ?_
      exact fun c hc => hdigits.noBlanks c (List.mem_of_mem_drop hc)
    · decide

theorem noBlanks_write (negative : Bool) (decimal : Decimal) :
    NoBlanks (full.write negative decimal).toList := by
  have hdigits := asciiDigits_significantDigits decimal
  rw [write_eq, String.toList_append]
  refine noBlanks_append ?_ ?_
  · cases negative <;> decide
  · split
    · exact noBlanks_positional hdigits _
    · exact noBlanks_scientific hdigits _

end Layout

theorem noBlanks_toText (x : Double) : NoBlanks x.toText.toList := by
  cases x with
  | nan => decide
  | infinite negative => cases negative <;> decide
  | finite negative place => exact Layout.noBlanks_write negative _

theorem noBlanks_toString (n : Int) : NoBlanks (toString n).toList := by
  obtain ⟨sign, hsign, htext⟩ := toList_toString n
  rw [htext]
  exact noBlanks_append (isBlank_of_signText hsign) (asciiDigits_toDigits n.natAbs).noBlanks

/-! ## Texts -/

/-- A whole double is read back from the whole number that it is, but for the sign of a zero. -/
theorem readDouble?_truncate {x : Double} (h : x.isWhole = true) :
    ∃ y, Text.readDouble? (toString x.truncate) = some y ∧ y.isWhole = true ∧
      y.truncate = x.truncate := by
  cases x with
  | nan | infinite negative => cases h
  | finite negative place =>
    have hplace := Double.onGrid_of_isWhole h
    generalize (Double.finite negative place).truncate = n at hplace ⊢
    refine ⟨_, readDouble?_toString n, ?_⟩
    rw [Double.ofDecimal_onGrid _ hplace]
    obtain ⟨hwhole, htruncate⟩ := Double.isWhole_onGrid (decide (n < 0)) hplace
    refine ⟨hwhole, htruncate.trans ?_⟩
    simp only [decide_eq_true_eq]
    split <;> omega

theorem trimmed_eq_self {s : String} (h : Trimmed s.toList) : Text.trimmed s = s := by
  rw [Text.trimmed, h.trim_eq, String.ofList_toList]

theorem normalText_of_trimmed {s : String} (h : Trimmed s.toList) :
    normalText s =
      match Text.readDouble? s with
      | none => s
      | some x => if x.isWhole then toString x.truncate else x.toText := by
  have htrim := trimmed_eq_self h
  unfold normalText
  exact htrim.symm ▸ rfl

/-- The normal form of a text has no blanks at its ends. -/
theorem trimmed_normalText (s : String) : Trimmed (normalText s).toList := by
  unfold normalText
  simp only
  split
  · exact trimmed_trimmed s
  · split
    · exact trimmed_of_noBlanks (noBlanks_toString _)
    · exact trimmed_of_noBlanks (noBlanks_toText _)

/-- The normal form of a text is its own normal form. -/
theorem normalText_normalText (s : String) : normalText (normalText s) = normalText s := by
  rw [normalText_of_trimmed (trimmed_normalText s)]
  unfold normalText
  simp only
  cases hread : Text.readDouble? (Text.trimmed s) with
  | none => simp only [hread]
  | some x =>
    by_cases hwhole : x.isWhole = true
    · obtain ⟨y, hy, hywhole, hytruncate⟩ := readDouble?_truncate hwhole
      simp only [hwhole, if_true, hy, hywhole, hytruncate]
    · rw [Bool.not_eq_true] at hwhole
      simp only [hwhole, Bool.false_eq_true, if_false, x.readDouble?_toText]

/-! ## Lists -/

section Comma

variable {c : Char} {cs : List Char}

theorem mem_stripWhile {p : Char → Bool} (hp : p c = false) (hc : c ∈ cs) :
    c ∈ Text.stripWhile p cs := by
  have hdrop {ds : List Char} (hd : c ∈ ds) : c ∈ ds.dropWhile p := by
    rw [← List.takeWhile_append_dropWhile (p := p) (l := ds), List.mem_append] at hd
    refine hd.resolve_left fun htake => ?_
    have := List.all_eq_true.1 List.all_takeWhile c htake
    rw [hp] at this
    cases this
  rw [Text.stripWhile, List.mem_reverse]
  exact hdrop (List.mem_reverse.2 (hdrop hc))

theorem mem_signed (hminus : c ≠ '-') (hplus : c ≠ '+') (hc : c ∈ cs) :
    c ∈ (Text.signed cs).2 := by
  unfold Text.signed
  split
  · exact (List.mem_cons.1 hc).resolve_left hminus
  · exact (List.mem_cons.1 hc).resolve_left hplus
  · exact hc

/-- What is neither a digit nor an underscore is left behind a row of digits. -/
theorem mem_moreDigits (hdigit : Text.decimalValue? c = none) (hunderscore : c ≠ '_')
    (hc : c ∈ cs) : c ∈ (Text.moreDigits cs).2 := by
  have hne {d : Char} {digit : Nat} (hd : Text.decimalValue? d = some digit) : c ≠ d := by
    rintro rfl
    rw [hdigit] at hd
    cases hd
  fun_induction Text.moreDigits cs with
  | case1 => cases hc
  | case2 d ds digit hd digits rest hrest ih =>
    rw [hrest] at ih
    exact ih ((List.mem_cons.1 hc).resolve_left (hne hd))
  | case3 | case5 | case6 => exact hc
  | case4 d hd hscore e ds digit he digits rest hrest ih =>
    rw [hrest] at ih
    have hc' : c ∈ e :: ds := (List.mem_cons.1 hc).resolve_left (eq_of_beq hscore ▸ hunderscore)
    exact ih ((List.mem_cons.1 hc').resolve_left (hne he))

theorem mem_digitRun (hdigit : Text.decimalValue? c = none) (hunderscore : c ≠ '_')
    (hc : c ∈ cs) : c ∈ (Text.digitRun cs).2 := by
  cases cs with
  | nil => cases hc
  | cons d ds =>
    simp only [Text.digitRun]
    split
    · next digit hd =>
      have hne : c ≠ d := by
        rintro rfl
        rw [hdigit] at hd
        cases hd
      exact mem_moreDigits hdigit hunderscore ((List.mem_cons.1 hc).resolve_left hne)
    · exact hc

theorem mem_mantissa (hdigit : Text.decimalValue? c = none) (hunderscore : c ≠ '_')
    (hpoint : c ≠ '.') (hc : c ∈ cs) : c ∈ (Text.mantissa cs).2.2 := by
  have hrun := mem_digitRun hdigit hunderscore hc
  unfold Text.mantissa
  split
  · next whole rest heq =>
    rw [heq] at hrun
    exact mem_digitRun hdigit hunderscore ((List.mem_cons.1 hrun).resolve_left hpoint)
  · next whole rest heq =>
    rw [heq] at hrun
    exact hrun

end Comma

/-- A character that stands in no number: no digit, and no sign, mark or letter of a number. -/
structure IsForeign (c : Char) : Prop where
  digit : Text.decimalValue? c = none
  mark : c ∉ ['-', '+', '.', '_', 'e', 'E']
  letter : c.toLower ∉ ['n', 'a', 'i', 'f', 't', 'y']

instance (c : Char) : Decidable (IsForeign c) :=
  decidable_of_iff (Text.decimalValue? c = none ∧ c ∉ ['-', '+', '.', '_', 'e', 'E'] ∧
      c.toLower ∉ ['n', 'a', 'i', 'f', 't', 'y'])
    ⟨fun h => ⟨h.1, h.2.1, h.2.2⟩, fun h => ⟨h.digit, h.mark, h.letter⟩⟩

section Foreign

variable {c : Char} {cs : List Char} (hforeign : IsForeign c)

include hforeign

theorem IsForeign.ne {mark : Char} (hmark : mark ∈ ['-', '+', '.', '_', 'e', 'E']) : c ≠ mark := by
  rintro rfl
  exact hforeign.mark hmark

theorem readExponent?_of_mem (h : c ∈ cs) : Text.readExponent? cs = none := by
  unfold Text.readExponent?
  split
  · cases h
  · next d ds =>
    split
    · next hexponent =>
      have hne : c ≠ d := by
        rintro rfl
        rw [Bool.or_eq_true, beq_iff_eq, beq_iff_eq] at hexponent
        rcases hexponent with hlower | hupper
        · exact hforeign.ne (by decide) hlower
        · exact hforeign.ne (by decide) hupper
      have hrun := mem_digitRun hforeign.digit (hforeign.ne (by decide))
        (mem_signed (hforeign.ne (by decide)) (hforeign.ne (by decide))
          ((List.mem_cons.1 h).resolve_left hne))
      -- The character is left behind the digits, so they do not reach the end.
      simp only
      split
      · next heq =>
        rw [heq] at hrun
        cases hrun
      · rfl
    · rfl

theorem lowerAscii_ne_of_mem (h : c ∈ cs) (name : List Char)
    (hname : ∀ d ∈ name, d ∈ ['n', 'a', 'i', 'f', 't', 'y']) : Text.lowerAscii cs ≠ name := by
  intro heq
  exact hforeign.letter (hname _ (heq ▸ List.mem_map_of_mem h))

/-- What stands in no number stands in no text that is read as one. -/
theorem readDouble?_of_mem {s : String} (h : c ∈ Text.stripWhile Text.isNumberBlank s.toList) :
    Text.readDouble? s = none := by
  have hrest := mem_signed (hforeign.ne (by decide)) (hforeign.ne (by decide)) h
  have hlast := mem_mantissa hforeign.digit (hforeign.ne (by decide)) (hforeign.ne (by decide)) hrest
  unfold Text.readDouble?
  simp only [lowerAscii_ne_of_mem hforeign hrest ['n', 'a', 'n'] (by simp),
    lowerAscii_ne_of_mem hforeign hrest ['i', 'n', 'f'] (by simp),
    lowerAscii_ne_of_mem hforeign hrest ['i', 'n', 'f', 'i', 'n', 'i', 't', 'y'] (by simp),
    or_self, if_false]
  split
  · rfl
  · next heq =>
    rw [heq] at hlast
    rw [readExponent?_of_mem hforeign hlast, Option.map_none]

end Foreign

/-- A text with a comma is not a number. -/
theorem readDouble?_comma {s : String} (h : ',' ∈ s.toList) : Text.readDouble? s = none :=
  readDouble?_of_mem (by decide) (mem_stripWhile (by decide) h)

/-! ## Normal forms -/

/-- The ends of two trimmed texts with a comma between them are no blanks. -/
theorem tight_append_comma {as bs : List Char} (has : Trimmed as) (hbs : Trimmed bs) :
    Tight (as ++ ',' :: bs) := by
  refine ⟨by simp, fun c hc => ?_, fun c hc => ?_⟩
  -- An empty text leaves the end to the comma.
  · cases has with
    | inl hnil =>
      subst hnil
      cases hc
      decide
    | inr htight =>
      have hd := List.head?_eq_some_head htight.ne_nil
      rw [List.head?_append, hd] at hc
      cases hc
      exact htight.head _ hd
  · cases hbs with
    | inl hnil =>
      subst hnil
      rw [List.getLast?_concat] at hc
      cases hc
      decide
    | inr htight =>
      have hd := List.getLast?_eq_some_getLast htight.ne_nil
      rw [List.getLast?_append, List.getLast?_cons, hd] at hc
      cases hc
      exact htight.last _ hd

/-- Texts without blanks at their ends, joined by commas, have none at the ends of the whole. -/
theorem trimmed_intercalate {texts : List String} (h : ∀ s ∈ texts, Trimmed s.toList) :
    Trimmed (",".intercalate texts).toList := by
  induction texts with
  | nil => exact .inl rfl
  | cons s texts ih =>
    obtain ⟨hs, htexts⟩ := List.forall_mem_cons.1 h
    cases texts with
    | nil =>
      rw [String.intercalate_singleton]
      exact hs
    | cons t texts =>
      have heq : (",".intercalate (s :: t :: texts)).toList =
          s.toList ++ ',' :: (",".intercalate (t :: texts)).toList := by
        rw [String.intercalate_cons_cons, String.toList_append, String.toList_append,
          List.append_assoc]
        rfl
      rw [heq]
      exact .inr (tight_append_comma hs (ih htexts))

/-- Joined by commas, normal texts are normal. -/
theorem normalText_intercalate {texts : List String} (h : ∀ s ∈ texts, normalText s = s) :
    normalText (",".intercalate texts) = ",".intercalate texts := by
  have htrimmed : ∀ s ∈ texts, Trimmed s.toList := fun s hs => h s hs ▸ trimmed_normalText s
  cases texts with
  | nil => decide +kernel
  | cons s texts =>
    cases texts with
    | nil =>
      rw [String.intercalate_singleton]
      exact h s List.mem_cons_self
    -- Two texts or more have a comma between them, so together they are not a number.
    | cons t texts =>
      have hcomma : ',' ∈ (",".intercalate (s :: t :: texts)).toList := by
        rw [String.intercalate_cons_cons, String.toList_append, String.toList_append]
        exact List.mem_append_left _ (List.mem_append_right _ List.mem_cons_self)
      rw [normalText_of_trimmed (trimmed_intercalate htrimmed), readDouble?_comma hcomma]

namespace Value

mutual

/-- The normal form of a value is its own normal form. -/
theorem normalText_normalForm : ∀ v : Value, normalText v.normalForm = v.normalForm
  | .list items => by
    rw [normalForm]
    exact normalText_intercalate (normalText_normalForms items)
  | .bool b => by cases b <;> decide +kernel
  | .null | .int n | .real x | .text s | .map entries | .perFeature => by
    rw [normalForm]
    · exact normalText_normalText _
    · simp
    · simp

theorem normalText_normalForms : ∀ items : List Value, ∀ s ∈ normalForms items, normalText s = s
  | [] => by simp [normalForms]
  | item :: items => by
    rw [normalForms]
    exact List.forall_mem_cons.2 ⟨normalText_normalForm item, normalText_normalForms items⟩

end

end Value

end ChartStyle
