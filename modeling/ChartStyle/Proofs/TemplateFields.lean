import ChartStyle.Proofs.NumeralReading
import ChartStyle.Text.Template
import Mathlib.Data.List.TakeWhile

/-!
# Fields of templates

The text of a field: flags, a width, a precision, a length mark and a letter (`Field.Spelled`). A
field is read after a percent sign just when its text stands there (`Field.read?_eq_some_iff`), so
at no place begin two fields. The pieces of a template are the one way to cut it into the fields
that begin leftmost and what stands between them (`cut_iff`).
-/

set_option autoImplicit false

namespace ChartStyle.Text

/-! ## The text of a field -/

namespace Field

/-- The text of a precision: none, or digits after a point. -/
inductive Precise : Option Nat → List Char → Prop where
  | none : Precise none []
  | digits {digits : List Char} (hne : digits ≠ []) (h : ∀ c ∈ digits, isDecimal c = true) :
    Precise (some (digitsValue (digits.filterMap decimalValue?))) ('.' :: digits)

/-- The text of a field after its percent sign. -/
inductive Spelled : Field → List Char → Prop where
  | mk {flags width precision mark : List Char} {letter : Char} {places : Option Nat}
    {conversion : Conversion} (hflags : ∀ c ∈ flags, isFlag c = true)
    (hwidth : ∀ c ∈ width, isDecimal c = true) (hprecision : Precise places precision)
    (hmark : mark = [] ∨ mark = ['l']) (hletter : Conversion.ofChar? letter = some conversion) :
    Spelled ⟨places, conversion⟩ (flags ++ (width ++ (precision ++ (mark ++ [letter]))))

/-! ## What is read -/

variable {cs rest : List Char} {f : Field}

/-- The letters of the conversions. -/
theorem mem_of_ofChar? {letter : Char} {conversion : Conversion}
    (h : Conversion.ofChar? letter = some conversion) : letter ∈ ['s', 'd', 'i', 'f'] := by
  unfold Conversion.ofChar? at h
  split at h
  · next hs => simp [hs]
  · split at h
    · next hd => rcases hd with rfl | rfl <;> simp
    · split at h
      · next hf => simp [hf]
      · cases h

/-- The digits of a precision are read as its places when something else follows them. -/
theorem precision?_of_precise {places : Option Nat} {precision : List Char}
    (h : Precise places precision)
    (hrest : ∀ c ∈ rest.head?, isDecimal c = false ∧ c ≠ '.') :
    precision? (precision ++ rest) = (places, rest) := by
  cases h with
  | none =>
    rw [List.nil_append]
    unfold precision?
    split
    · exact absurd rfl (hrest '.' rfl).2
    · rfl
  | @digits digits hne h =>
    obtain ⟨htake, hdrop⟩ := span_isDecimal h rest fun c hc => (hrest c hc).1
    rw [List.cons_append, precision?, htake, hdrop]
    split
    · next hnone =>
      -- Each digit has its value.
      obtain ⟨c, hc⟩ := List.exists_mem_of_ne_nil _ hne
      obtain ⟨value, hvalue⟩ := Option.isSome_iff_exists.1 (h c hc)
      have hmem := List.mem_filterMap.2 ⟨c, hc, hvalue⟩
      rw [hnone] at hmem
      cases hmem
    · rfl

theorem exists_precise (cs : List Char) :
    ∃ precision, Precise (precision? cs).1 precision ∧ cs = precision ++ (precision? cs).2 := by
  unfold precision?
  split
  · next cs =>
    split
    · exact ⟨[], .none, rfl⟩
    · next hdigits =>
      refine ⟨'.' :: cs.takeWhile isDecimal, .digits ?_ fun c hc => List.mem_takeWhile_imp hc, ?_⟩
      · intro hnil
        rw [hnil] at hdigits
        exact hdigits rfl
      · rw [List.cons_append, List.takeWhile_append_dropWhile]
  · exact ⟨[], .none, rfl⟩

theorem skipLength_of_mark {mark : List Char} (h : mark = [] ∨ mark = ['l'])
    (hrest : rest.head? ≠ some 'l') : skipLength (mark ++ rest) = rest := by
  rcases h with rfl | rfl
  · rw [List.nil_append]
    unfold skipLength
    split
    · exact absurd rfl hrest
    · rfl
  · rfl

theorem exists_mark (cs : List Char) :
    ∃ mark, (mark = [] ∨ mark = ['l']) ∧ cs = mark ++ skipLength cs := by
  unfold skipLength
  split
  · exact ⟨['l'], .inr rfl, rfl⟩
  · exact ⟨[], .inl rfl, rfl⟩

/-- Flags and a width are passed over, whether a zero counts as the one or the other. -/
theorem dropWhile_flags {flags width : List Char} (hflags : ∀ c ∈ flags, isFlag c = true)
    (hwidth : ∀ c ∈ width, isDecimal c = true)
    (hrest : ∀ c ∈ rest.head?, isFlag c = false ∧ isDecimal c = false) :
    ((flags ++ (width ++ rest)).dropWhile isFlag).dropWhile isDecimal = rest := by
  rw [List.dropWhile_append_of_pos hflags]
  induction width with
  | nil =>
    cases rest with
    | nil => rfl
    | cons c rest =>
      obtain ⟨hflag, hdecimal⟩ := hrest c rfl
      rw [List.nil_append, List.dropWhile_cons_of_neg (by simp [hflag]),
        List.dropWhile_cons_of_neg (by simp [hdecimal])]
  | cons c width ih =>
    obtain ⟨hc, hothers⟩ := List.forall_mem_cons.1 hwidth
    rw [List.cons_append]
    cases hflag : isFlag c with
    | true =>
      rw [List.dropWhile_cons_of_pos hflag]
      exact ih hothers
    | false =>
      rw [List.dropWhile_cons_of_neg (by simp [hflag]), ← List.cons_append]
      exact (span_isDecimal hwidth rest fun c hc => (hrest c hc).2).2

/-- What is read as a field is the text of a field. -/
theorem exists_spelled_of_read? (h : read? cs = some (f, rest)) :
    ∃ spelling, Spelled f spelling ∧ cs = spelling ++ rest := by
  simp only [read?] at h
  obtain ⟨precision, hprecision, hcs⟩ := exists_precise ((cs.dropWhile isFlag).dropWhile isDecimal)
  obtain ⟨mark, hmark, hlength⟩ :=
    exists_mark (precision? ((cs.dropWhile isFlag).dropWhile isDecimal)).2
  split at h
  · cases h
  · next letter after hletter =>
    simp only [Option.map_eq_some_iff, Prod.mk.injEq] at h
    obtain ⟨conversion, hconversion, rfl, rfl⟩ := h
    have hflags : ∀ c ∈ cs.takeWhile isFlag, isFlag c = true :=
      fun c hc => List.mem_takeWhile_imp hc
    have hwidth : ∀ c ∈ (cs.dropWhile isFlag).takeWhile isDecimal, isDecimal c = true :=
      fun c hc => List.mem_takeWhile_imp hc
    refine ⟨_, .mk hflags hwidth hprecision hmark hconversion, ?_⟩
    have htail : (cs.dropWhile isFlag).dropWhile isDecimal =
        precision ++ (mark ++ letter :: after) :=
      hcs.trans (congrArg (precision ++ ·) (hlength.trans (congrArg (mark ++ ·) hletter)))
    calc cs = cs.takeWhile isFlag ++ ((cs.dropWhile isFlag).takeWhile isDecimal ++
          (cs.dropWhile isFlag).dropWhile isDecimal) := by
          rw [List.takeWhile_append_dropWhile, List.takeWhile_append_dropWhile]
      _ = _ := by
        rw [htail]
        simp only [List.append_assoc, List.cons_append, List.nil_append]

/-- Behind the precision stands a letter, which ends flags, widths and precisions. -/
theorem head_marked {mark : List Char} {letter : Char} {conversion : Conversion}
    (hmark : mark = [] ∨ mark = ['l']) (hletter : Conversion.ofChar? letter = some conversion) :
    ∀ c ∈ (mark ++ letter :: rest).head?, isFlag c = false ∧ isDecimal c = false ∧ c ≠ '.' := by
  have hclass : ∀ c ∈ ['l', 's', 'd', 'i', 'f'],
      isFlag c = false ∧ isDecimal c = false ∧ c ≠ '.' := by
    simp only [List.forall_mem_cons, List.not_mem_nil, false_imp_iff, implies_true, and_true]
    decide +kernel
  intro c hc
  apply hclass
  rcases hmark with rfl | rfl
  · cases hc
    exact List.mem_cons_of_mem 'l' (mem_of_ofChar? hletter)
  · cases hc
    exact List.mem_cons_self

/-- The text of a field is read as the field, whatever follows it. -/
theorem Spelled.read?_append {spelling : List Char} (h : Spelled f spelling) (rest : List Char) :
    read? (spelling ++ rest) = some (f, rest) := by
  obtain @⟨flags, width, precision, mark, letter, places, conversion, hflags, hwidth, hprecision,
    hmark, hletter⟩ := h
  have hmarked : ∀ c ∈ (mark ++ letter :: rest).head?,
      isFlag c = false ∧ isDecimal c = false ∧ c ≠ '.' := head_marked hmark hletter
  have hprecise : ∀ c ∈ (precision ++ (mark ++ letter :: rest)).head?,
      isFlag c = false ∧ isDecimal c = false := by
    cases hprecision with
    | none => exact fun c hc => ⟨(hmarked c hc).1, (hmarked c hc).2.1⟩
    | digits hne h =>
      intro c hc
      cases hc
      decide +kernel
  -- The letter is no length mark itself.
  have hl : (letter :: rest).head? ≠ some 'l' := by
    intro hl
    cases hl
    exact absurd (mem_of_ofChar? hletter) (by decide)
  have hread := dropWhile_flags hflags hwidth hprecise
  simp only [List.append_assoc, List.cons_append, List.nil_append] at hread ⊢
  rw [read?, hread, precision?_of_precise hprecision fun c hc => (hmarked c hc).2]
  simp only [skipLength_of_mark hmark hl, hletter, Option.map_some]

/-- A field is read after a percent sign just when its text stands there. -/
theorem read?_eq_some_iff :
    read? cs = some (f, rest) ↔ ∃ spelling, Spelled f spelling ∧ cs = spelling ++ rest := by
  refine ⟨exists_spelled_of_read?, ?_⟩
  rintro ⟨spelling, hspelling, rfl⟩
  exact hspelling.read?_append rest

end Field

/-! ## The pieces -/

/-- A template is cut at the fields that begin leftmost: where a field begins it is taken whole, and
any other character is passed as literal text. -/
inductive Cut : List Char → List Piece → Prop where
  | nil : Cut [] []
  | field {f : Field} {spelling rest : List Char} {ps : List Piece} (hf : f.Spelled spelling)
    (h : Cut rest ps) : Cut ('%' :: (spelling ++ rest)) (.field f :: ps)
  | char {c : Char} {cs : List Char} {ps : List Piece}
    (hnone : ∀ f spelling rest, Field.Spelled f spelling → c :: cs ≠ '%' :: (spelling ++ rest))
    (h : Cut cs ps) : Cut (c :: cs) (Piece.addChar c ps)

theorem pieces_of_field {f : Field} {cs rest : List Char} (h : Field.read? cs = some (f, rest)) :
    pieces ('%' :: cs) = .field f :: pieces rest := by
  rw [pieces, if_pos rfl]
  split
  · next hread =>
    cases hread.symm.trans h
    rfl
  · next hread => cases hread.symm.trans h

theorem pieces_of_char {c : Char} {cs : List Char} (h : c = '%' → Field.read? cs = none) :
    pieces (c :: cs) = Piece.addChar c (pieces cs) := by
  rw [pieces]
  split
  · next hc =>
    split
    · next hread => cases hread.symm.trans (h hc)
    · rfl
  · rfl

/-- There is one way to cut a template. -/
theorem cut_iff {cs : List Char} {ps : List Piece} : Cut cs ps ↔ ps = pieces cs := by
  constructor
  · intro h
    induction h with
    | nil => rw [pieces]
    | @field f spelling rest ps hf _ ih =>
      rw [pieces_of_field (Field.read?_eq_some_iff.2 ⟨spelling, hf, rfl⟩), ih]
    | @char c cs ps hnone _ ih =>
      rw [pieces_of_char, ih]
      rintro rfl
      cases hread : Field.read? cs with
      | none => rfl
      | some read =>
        obtain ⟨spelling, hf, rfl⟩ := Field.read?_eq_some_iff.1 hread
        exact absurd rfl (hnone _ _ _ hf)
  · rintro rfl
    -- A field leaves less text, so the induction is over the recursion of the pieces.
    fun_induction pieces cs with
    | case1 => exact .nil
    | case2 cs f rest hread ih =>
      obtain ⟨spelling, hf, rfl⟩ := Field.read?_eq_some_iff.1 hread
      exact .field hf ih
    | case3 cs hread ih =>
      refine .char (fun f spelling rest hf heq => ?_) ih
      obtain ⟨-, rfl⟩ := List.cons.inj heq
      cases hread.symm.trans (Field.read?_eq_some_iff.2 ⟨spelling, hf, rfl⟩)
    | case4 c cs hc ih =>
      refine .char (fun f spelling rest hf heq => ?_) ih
      exact hc (List.cons.inj heq).1

end ChartStyle.Text
