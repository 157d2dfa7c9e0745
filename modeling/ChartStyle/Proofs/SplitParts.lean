import ChartStyle.Instruction.Split

/-!
# Splitting what was joined

A text is `Neutral` for a separator when the scan passes it without a cut and leaves it as it was
entered, at any depth of parentheses. Plain text, quoted strings and parenthesised text are neutral,
and so is what is put together of neutral texts. Neutral texts with separators between them are
split into just these texts (`splitOutsideQuotes_append_cons`). Any split has a first part, and what
follows it is a text of its own (`splitFrom_eq_some_cons`). A text is not split just when the scan
ends with an open quote (`splitFrom_eq_none_iff`), and the parts of one that is are the text when
separators stand between them (`intercalate_of_splitOutsideQuotes`).
-/

set_option autoImplicit false

namespace ChartStyle

namespace Scan

/-- The scan after a text. -/
def after (s : Scan) (cs : List Char) : Scan := cs.foldl next s

/-- The scan from `s` on meets no separator at which it cuts. -/
def Uncut (separator : Char) : Scan → List Char → Prop
  | _, [] => True
  | s, c :: cs => s.cutsAt separator c = false ∧ Uncut separator (s.next c) cs

variable {separator : Char} {s : Scan} {as bs : List Char}

theorem uncut_append (has : s.Uncut separator as) (hbs : (s.after as).Uncut separator bs) :
    s.Uncut separator (as ++ bs) := by
  induction as generalizing s with
  | nil => exact hbs
  | cons a as ih => exact ⟨has.1, ih has.2 hbs⟩

/-- Where the text is cut, the scan stands as at the start. -/
theorem eq_start_of_cutsAt {c : Char} (h : s.cutsAt separator c = true) :
    s = start ∧ s.next c = s := by
  obtain ⟨quote, depth⟩ := s
  simp only [cutsAt, Bool.and_eq_true, beq_iff_eq, Option.isNone_iff_eq_none, bne_iff_ne,
    Bool.not_eq_true'] at h
  obtain ⟨⟨⟨⟨⟨-, rfl⟩, rfl⟩, hquote⟩, hopen⟩, hclose⟩ := h
  exact ⟨rfl, by simp [next, hquote, hopen, hclose]⟩

theorem eq_separator_of_cutsAt {c : Char} (h : s.cutsAt separator c = true) : c = separator := by
  simp only [cutsAt, Bool.and_eq_true, beq_iff_eq] at h
  exact h.1.1.1.1.1

theorem after_append : s.after (as ++ bs) = (s.after as).after bs := List.foldl_append ..

/-- Behind a cut the scan goes on as it begins. -/
theorem after_append_cons (h : (s.after as).cutsAt separator separator = true) :
    s.after (as ++ separator :: bs) = start.after bs := by
  obtain ⟨hstart, hnext⟩ := eq_start_of_cutsAt h
  rw [after_append]
  show ((s.after as).next separator).after bs = start.after bs
  rw [hnext, hstart]

end Scan

/-- What is not cut is the beginning of the first part. -/
theorem splitFrom_append {separator : Char} {s : Scan} {cs : List Char} (rest : List Char)
    (hcs : s.Uncut separator cs) :
    splitFrom separator s (cs ++ rest) =
      (splitFrom separator (s.after cs) rest).map (List.modifyHead (cs ++ ·)) := by
  -- The scan is in another state behind each character, so the induction is over all states.
  induction cs generalizing s with
  | nil =>
    have hid : List.modifyHead (fun part : List Char => [] ++ part) = id := by
      funext parts
      cases parts <;> rfl
    rw [hid, Option.map_id]
    rfl
  | cons c cs ih =>
    have hhead : List.modifyHead (c :: ·) ∘ List.modifyHead (cs ++ ·) =
        List.modifyHead (fun part : List Char => c :: cs ++ part) := by
      funext parts
      cases parts <;> rfl
    show splitFrom separator s (c :: (cs ++ rest)) = _
    rw [splitFrom, hcs.1, if_neg Bool.false_ne_true, ih hcs.2, Option.map_map, hhead]
    rfl

/-- A text is not split when the scan ends with an open quote, and only then. -/
theorem splitFrom_eq_none_iff {separator : Char} {s : Scan} {cs : List Char} :
    splitFrom separator s cs = none ↔ (s.after cs).quote ≠ none := by
  induction cs generalizing s with
  | nil =>
    show (if s.quote.isNone then some [[]] else none) = none ↔ s.quote ≠ none
    cases s.quote <;> simp
  | cons c cs ih =>
    show splitFrom separator s (c :: cs) = none ↔ ((s.next c).after cs).quote ≠ none
    rw [splitFrom]
    cases hcut : s.cutsAt separator c with
    | true => rw [if_pos rfl, Option.map_eq_none_iff, ih, (Scan.eq_start_of_cutsAt hcut).2]
    | false => rw [if_neg Bool.false_ne_true, Option.map_eq_none_iff, ih]

/-- There is always a part. -/
theorem exists_cons_of_splitFrom {separator : Char} {s : Scan} {cs : List Char}
    {parts : List (List Char)} (h : splitFrom separator s cs = some parts) :
    ∃ part rest, parts = part :: rest := by
  induction cs generalizing s parts with
  | nil =>
    rw [splitFrom] at h
    split at h
    · cases h
      exact ⟨[], [], rfl⟩
    · cases h
  | cons c cs ih =>
    rw [splitFrom] at h
    split at h
    · obtain ⟨further, -, rfl⟩ := Option.map_eq_some_iff.1 h
      exact ⟨[], further, rfl⟩
    · obtain ⟨inner, hinner, rfl⟩ := Option.map_eq_some_iff.1 h
      obtain ⟨part, rest, rfl⟩ := ih hinner
      exact ⟨c :: part, rest, rfl⟩

/-- The first part is what stands before the first cut. -/
theorem splitFrom_eq_some_cons {separator : Char} {s : Scan} {cs part : List Char}
    {parts : List (List Char)} :
    splitFrom separator s cs = some (part :: parts) ↔
      s.Uncut separator part ∧
        ((cs = part ∧ parts = [] ∧ (s.after part).quote = none) ∨
          ∃ rest, cs = part ++ separator :: rest ∧
            (s.after part).cutsAt separator separator = true ∧
            splitFrom separator .start rest = some parts) := by
  constructor
  · intro h
    induction cs generalizing s part parts with
    | nil =>
      rw [splitFrom] at h
      split at h
      · next hquote =>
        cases h
        exact ⟨trivial, .inl ⟨rfl, rfl, Option.isNone_iff_eq_none.1 hquote⟩⟩
      · cases h
    | cons c cs ih =>
      rw [splitFrom] at h
      cases hcut : s.cutsAt separator c with
      | true =>
        rw [hcut, if_pos rfl] at h
        obtain ⟨further, hfurther, heq⟩ := Option.map_eq_some_iff.1 h
        cases heq
        obtain ⟨rfl, -⟩ := Scan.eq_start_of_cutsAt hcut
        obtain rfl := Scan.eq_separator_of_cutsAt hcut
        exact ⟨trivial, .inr ⟨cs, rfl, hcut, hfurther⟩⟩
      | false =>
        rw [hcut, if_neg Bool.false_ne_true] at h
        obtain ⟨inner, hinner, heq⟩ := Option.map_eq_some_iff.1 h
        cases inner with
        | nil => cases heq
        | cons first further =>
          cases heq
          obtain ⟨huncut, hend⟩ := ih hinner
          refine ⟨⟨hcut, huncut⟩, ?_⟩
          rcases hend with ⟨rfl, hnil, hquote⟩ | ⟨rest, rfl, hend⟩
          · exact .inl ⟨rfl, hnil, hquote⟩
          · exact .inr ⟨rest, rfl, hend⟩
  -- What is not cut is passed over as one part.
  · rintro ⟨huncut, ⟨rfl, rfl, hquote⟩ | ⟨rest, rfl, hcut, hrest⟩⟩
    · have hsplit := splitFrom_append [] huncut
      rw [List.append_nil, splitFrom, hquote] at hsplit
      simpa using hsplit
    · rw [splitFrom_append _ huncut, splitFrom, hcut, if_pos rfl, (Scan.eq_start_of_cutsAt hcut).1,
        hrest]
      simp

/-! ## Neutral text -/

/-- The scan passes the text without a cut and stands after it as it stood before, whatever the
depth. -/
def Neutral (separator : Char) (cs : List Char) : Prop :=
  ∀ depth, Scan.Uncut separator ⟨none, depth⟩ cs ∧ Scan.after ⟨none, depth⟩ cs = ⟨none, depth⟩

/-- A character that is not a quote or a parenthesis. -/
def Scan.isPlain (c : Char) : Bool := !isQuote c && c != '(' && c != ')'

namespace Neutral

variable {separator : Char} {as bs : List Char}

theorem nil : Neutral separator [] := fun _ => ⟨trivial, rfl⟩

theorem append (has : Neutral separator as) (hbs : Neutral separator bs) :
    Neutral separator (as ++ bs) := by
  intro depth
  refine ⟨Scan.uncut_append (has depth).1 ?_, ?_⟩
  · rw [(has depth).2]
    exact (hbs depth).1
  · rw [Scan.after_append, (has depth).2, (hbs depth).2]

theorem char {c : Char} (hplain : Scan.isPlain c = true) (hc : c ≠ separator) :
    Neutral separator [c] := by
  intro depth
  simp only [Scan.isPlain, Bool.and_eq_true, Bool.not_eq_eq_eq_not, Bool.not_true, bne_iff_ne]
    at hplain
  obtain ⟨⟨hquote, hopen⟩, hclose⟩ := hplain
  refine ⟨⟨?_, trivial⟩, ?_⟩
  · simp [Scan.cutsAt, hc]
  · simp [Scan.after, Scan.next, hquote, hopen, hclose]

theorem cons {c : Char} (hplain : Scan.isPlain c = true) (hc : c ≠ separator)
    (hbs : Neutral separator bs) : Neutral separator (c :: bs) := (char hplain hc).append hbs

theorem plain (h : ∀ c ∈ as, Scan.isPlain c = true ∧ c ≠ separator) : Neutral separator as := by
  induction as with
  | nil => exact nil
  | cons c as ih =>
    obtain ⟨hplain, hc⟩ := h c List.mem_cons_self
    exact cons hplain hc (ih fun d hd => h d (List.mem_cons_of_mem c hd))

/-- Inside a quoted string nothing is seen but the quote that ends it. -/
theorem open_quote {quote : Char} {contents : List Char} (hcontents : quote ∉ contents)
    (depth : Int) :
    Scan.Uncut separator ⟨some quote, depth⟩ contents ∧
      Scan.after ⟨some quote, depth⟩ contents = ⟨some quote, depth⟩ := by
  induction contents with
  | nil => exact ⟨trivial, rfl⟩
  | cons c contents ih =>
    have hc : quote ≠ c := List.ne_of_not_mem_cons hcontents
    have hrest : quote ∉ contents := List.not_mem_of_not_mem_cons hcontents
    have hnext : Scan.next ⟨some quote, depth⟩ c = ⟨some quote, depth⟩ := by
      simp [Scan.next, Ne.symm hc]
    obtain ⟨huncut, hafter⟩ := ih hrest
    refine ⟨⟨by simp [Scan.cutsAt], ?_⟩, ?_⟩
    · rw [hnext]
      exact huncut
    · show Scan.after (Scan.next ⟨some quote, depth⟩ c) contents = _
      rw [hnext, hafter]

theorem quoted {quote : Char} {contents : List Char} (hquote : Scan.isQuote quote = true)
    (hcontents : quote ∉ contents) : Neutral separator (quote :: contents ++ [quote]) := by
  intro depth
  obtain ⟨huncut, hafter⟩ : Scan.Uncut separator ⟨some quote, depth⟩ contents ∧ _ :=
    open_quote hcontents depth
  have hopened : Scan.next ⟨none, depth⟩ quote = ⟨some quote, depth⟩ := by
    simp [Scan.next, hquote]
  refine ⟨⟨by simp [Scan.cutsAt, hquote], ?_⟩, ?_⟩
  · rw [hopened]
    refine Scan.uncut_append huncut ?_
    rw [hafter]
    exact ⟨by simp [Scan.cutsAt], trivial⟩
  · show Scan.after (Scan.next ⟨none, depth⟩ quote) (contents ++ [quote]) = _
    rw [hopened, Scan.after_append, hafter]
    simp [Scan.after, Scan.next]

theorem parenthesised (has : Neutral separator as) : Neutral separator ('(' :: as ++ [')']) := by
  intro depth
  have hopened : Scan.next ⟨none, depth⟩ '(' = ⟨none, depth + 1⟩ := rfl
  refine ⟨⟨by simp [Scan.cutsAt], ?_⟩, ?_⟩
  · rw [hopened]
    refine Scan.uncut_append (has _).1 ?_
    rw [(has _).2]
    exact ⟨by simp [Scan.cutsAt], trivial⟩
  · show Scan.after (Scan.next ⟨none, depth⟩ '(') (as ++ [')']) = _
    rw [hopened, Scan.after_append, (has _).2]
    show (⟨none, depth + 1 - 1⟩ : Scan) = _
    rw [Int.add_sub_cancel]

end Neutral

/-! ## Parts -/

variable {separator : Char} {cs : List Char}

/-- A neutral text is one part. -/
theorem splitOutsideQuotes_neutral (hcs : Neutral separator cs) :
    splitOutsideQuotes separator cs = some [cs] := by
  obtain ⟨huncut, hafter⟩ := hcs 0
  have hsplit := splitFrom_append [] huncut
  rw [List.append_nil] at hsplit
  rw [splitOutsideQuotes, Scan.start, hsplit, hafter]
  simp [splitFrom]

/-- What is not cut before a separator that is a cut is the first part. -/
theorem splitOutsideQuotes_of_cut {part rest : List Char}
    (huncut : Scan.start.Uncut separator part)
    (hcut : (Scan.start.after part).cutsAt separator separator = true) :
    splitOutsideQuotes separator (part ++ separator :: rest) =
      (splitOutsideQuotes separator rest).map (part :: ·) := by
  have hhead : List.modifyHead (part ++ ·) ∘ ([] :: ·) = (part :: · : List (List Char) → _) := by
    funext parts
    exact congrArg (· :: parts) (List.append_nil part)
  rw [splitOutsideQuotes, splitFrom_append _ huncut, splitFrom, hcut, if_pos rfl, Option.map_map,
    hhead, (Scan.eq_start_of_cutsAt hcut).1]
  rfl

theorem Scan.cutsAt_start (hseparator : Scan.isPlain separator = true) :
    Scan.start.cutsAt separator separator = true := by
  simp only [Scan.isPlain, Bool.and_eq_true, Bool.not_eq_eq_eq_not, Bool.not_true] at hseparator
  simp [Scan.cutsAt, Scan.start, hseparator]

/-- A neutral text before a separator is the first part. -/
theorem splitOutsideQuotes_append_cons (hseparator : Scan.isPlain separator = true)
    (hcs : Neutral separator cs) (rest : List Char) :
    splitOutsideQuotes separator (cs ++ separator :: rest) =
      (splitOutsideQuotes separator rest).map (cs :: ·) := by
  obtain ⟨huncut, hafter⟩ := hcs 0
  refine splitOutsideQuotes_of_cut huncut ?_
  rw [Scan.start, hafter]
  exact Scan.cutsAt_start hseparator

theorem intercalate_cons_cons (part next : List Char) (parts : List (List Char)) :
    [separator].intercalate (part :: next :: parts) =
      part ++ separator :: [separator].intercalate (next :: parts) := by
  rw [List.intercalate_cons_cons, List.append_assoc]
  rfl

/-- The parts of a text with separators between them are the text. -/
theorem intercalate_of_splitOutsideQuotes {parts : List (List Char)}
    (h : splitOutsideQuotes separator cs = some parts) : [separator].intercalate parts = cs := by
  induction parts generalizing cs with
  | nil =>
    obtain ⟨_, _, heq⟩ := exists_cons_of_splitFrom h
    cases heq
  | cons part parts ih =>
    obtain ⟨-, ⟨rfl, rfl, -⟩ | ⟨rest, rfl, -, hrest⟩⟩ := splitFrom_eq_some_cons.1 h
    · exact List.intercalate_singleton
    · obtain ⟨next, further, rfl⟩ := exists_cons_of_splitFrom hrest
      rw [intercalate_cons_cons, ih hrest]

end ChartStyle
