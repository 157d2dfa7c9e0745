import ChartStyle.Proofs.Parentheses

/-!
# Where a text is cut

A text is `WellQuoted` when each quoted string in it is ended, and otherwise it ends inside one
(`wellQuoted_or_endsInQuotes`). The scan tells these apart, and by its depth it tells where the
parentheses outside quotes are even (`endsOutside_iff`). So splitting fails just for a text that
ends inside a quoted string, and it cuts at each separator that stands behind a text which
`EndsOutside`, and nowhere else. The parts joined again are the text, a part is not cut further, and
two texts joined by a separator have the parts of both (`splitOutsideQuotes_exact`).
-/

set_option autoImplicit false

namespace ChartStyle

/-! ## Quoted strings -/

/-- Quoted strings that are ended, and characters between them. -/
inductive WellQuoted : List Char → Prop
  | nil : WellQuoted []
  | char {c : Char} {cs : List Char} (hc : Scan.isQuote c = false) (hcs : WellQuoted cs) :
      WellQuoted (c :: cs)
  | quoted {quote : Char} {contents cs : List Char} (hquote : Scan.isQuote quote = true)
      (hcontents : quote ∉ contents) (hcs : WellQuoted cs) :
      WellQuoted (quote :: contents ++ quote :: cs)

/-- The text ends inside a quoted string. -/
def EndsInQuotes (cs : List Char) : Prop :=
  ∃ before quote contents, WellQuoted before ∧ Scan.isQuote quote = true ∧ quote ∉ contents ∧
    cs = before ++ quote :: contents

namespace EndsInQuotes

variable {cs : List Char}

theorem char {c : Char} (hc : Scan.isQuote c = false) (h : EndsInQuotes cs) :
    EndsInQuotes (c :: cs) := by
  obtain ⟨before, quote, contents, hbefore, hquote, hcontents, rfl⟩ := h
  exact ⟨c :: before, quote, contents, .char hc hbefore, hquote, hcontents, rfl⟩

theorem quoted {quote : Char} {contents : List Char} (hquote : Scan.isQuote quote = true)
    (hcontents : quote ∉ contents) (h : EndsInQuotes cs) :
    EndsInQuotes (quote :: contents ++ quote :: cs) := by
  obtain ⟨before, last, rest, hbefore, hlast, hrest, rfl⟩ := h
  refine ⟨quote :: contents ++ quote :: before, last, rest, .quoted hquote hcontents hbefore,
    hlast, hrest, ?_⟩
  simp

end EndsInQuotes

theorem wellQuoted_or_endsInQuotes (cs : List Char) : WellQuoted cs ∨ EndsInQuotes cs := by
  -- A quoted string is passed over as a whole, so the induction is over the length.
  induction hlength : cs.length using Nat.strong_induction_on generalizing cs with
  | _ length ih =>
    cases cs with
    | nil => exact .inl .nil
    | cons c cs =>
      cases hc : Scan.isQuote c with
      | false =>
        have hlt : cs.length < length := by
          rw [← hlength]
          exact Nat.lt_succ_self _
        exact (ih _ hlt cs rfl).imp (.char hc) (.char hc)
      | true =>
        by_cases hmem : c ∈ cs
        · obtain ⟨contents, rest, rfl, hcontents⟩ := List.eq_append_cons_of_mem hmem
          have hlt : rest.length < length := by
            rw [← hlength, List.length_cons, List.length_append, List.length_cons]
            omega
          exact (ih _ hlt rest rfl).imp (.quoted hc hcontents) (.quoted hc hcontents)
        · exact .inr ⟨[], c, cs, .nil, hc, hmem, rfl⟩

namespace Scan

variable {s : Scan}

theorem quote_next {c : Char} (hs : s.quote = none) (hc : isQuote c = false) :
    (s.next c).quote = none := by
  simp only [next, hs, hc, Bool.false_eq_true, if_false]
  split
  · rfl
  · split
    · rfl
    · exact hs

/-- Behind the first of two quotes the scan sees nothing before the second. -/
theorem after_open {quote : Char} {contents : List Char} (hs : s.quote = none)
    (hquote : isQuote quote = true) (hcontents : quote ∉ contents) (rest : List Char) :
    s.after (quote :: contents ++ rest) = after ⟨some quote, s.depth⟩ rest := by
  have hopened : s.next quote = ⟨some quote, s.depth⟩ := by simp [next, hs, hquote]
  obtain ⟨-, hafter⟩ : Uncut quote ⟨some quote, s.depth⟩ contents ∧ _ :=
    Neutral.open_quote hcontents s.depth
  rw [after_append]
  show ((s.next quote).after contents).after rest = _
  rw [hopened, hafter]

end Scan

theorem WellQuoted.quote_after {cs : List Char} (h : WellQuoted cs) {s : Scan}
    (hs : s.quote = none) : (s.after cs).quote = none := by
  induction h generalizing s with
  | nil => exact hs
  | char hc _ ih => exact ih (Scan.quote_next hs hc)
  | @quoted quote contents cs hquote hcontents _ ih =>
    have hclosed : Scan.next ⟨some quote, s.depth⟩ quote = ⟨none, s.depth⟩ := by simp [Scan.next]
    rw [Scan.after_open hs hquote hcontents]
    show (Scan.after (Scan.next ⟨some quote, s.depth⟩ quote) cs).quote = none
    rw [hclosed]
    exact ih rfl

theorem EndsInQuotes.quote_after {cs : List Char} (h : EndsInQuotes cs) :
    (Scan.start.after cs).quote ≠ none := by
  obtain ⟨before, quote, contents, hbefore, hquote, hcontents, rfl⟩ := h
  have hopen := Scan.after_open (hbefore.quote_after (s := Scan.start) rfl) hquote hcontents []
  rw [List.append_nil] at hopen
  rw [Scan.after_append, hopen]
  exact Option.some_ne_none quote

/-- The scan ends outside quotes just for the texts in which each quoted string is ended. -/
theorem wellQuoted_iff {cs : List Char} :
    WellQuoted cs ↔ (Scan.start.after cs).quote = none := by
  refine ⟨fun h => h.quote_after rfl, fun hquote => ?_⟩
  exact (wellQuoted_or_endsInQuotes cs).resolve_right fun h => h.quote_after hquote

theorem endsInQuotes_iff {cs : List Char} :
    EndsInQuotes cs ↔ (Scan.start.after cs).quote ≠ none := by
  refine ⟨EndsInQuotes.quote_after, fun hquote => ?_⟩
  exact (wellQuoted_or_endsInQuotes cs).resolve_left fun h => hquote (h.quote_after rfl)

/-- Each quoted string of the text is ended, and as many parentheses outside quotes are closed as
are opened. -/
structure EndsOutside (cs : List Char) : Prop where
  quotes : WellQuoted cs
  depth : countOutside '(' cs = countOutside ')' cs

/-- Behind such a text the scan stands as at the start. -/
theorem endsOutside_iff {cs : List Char} : EndsOutside cs ↔ Scan.start.after cs = Scan.start := by
  have hdepth : (Scan.start.after cs).depth = countOutside '(' cs - countOutside ')' cs := by
    rw [Scan.depth_after]
    simp [Scan.start, countOutside]
  constructor
  · rintro ⟨hquotes, heven⟩
    rw [heven, Int.sub_self] at hdepth
    rw [wellQuoted_iff] at hquotes
    generalize Scan.start.after cs = s at hdepth hquotes ⊢
    obtain ⟨quote, depth⟩ := s
    obtain rfl : quote = none := hquotes
    obtain rfl : depth = 0 := hdepth
    rfl
  · intro hstart
    refine ⟨wellQuoted_iff.2 (by rw [hstart]; rfl), ?_⟩
    rw [hstart] at hdepth
    have hzero : Scan.start.depth = 0 := rfl
    omega

/-! ## Cuts -/

variable {separator : Char} {cs : List Char} {parts : List (List Char)}

/-- Between two of the parts there is a separator, with the one text before it and the other behind
it. -/
def IsCut (separator : Char) (parts : List (List Char)) (before behind : List Char) : Prop :=
  ∃ front back, front ≠ [] ∧ back ≠ [] ∧ parts = front ++ back ∧
    [separator].intercalate front = before ∧ [separator].intercalate back = behind

/-- What stands before a cut leaves the scan as at the start. -/
theorem after_front {front back : List (List Char)}
    (h : splitOutsideQuotes separator cs = some (front ++ back)) (hfront : front ≠ [])
    (hback : back ≠ []) :
    cs = [separator].intercalate front ++ separator :: [separator].intercalate back ∧
      Scan.start.after ([separator].intercalate front) = Scan.start := by
  induction front generalizing cs with
  | nil => exact absurd rfl hfront
  | cons part front ih =>
    obtain ⟨-, ⟨-, hnil, -⟩ | ⟨rest, rfl, hcut, hrest⟩⟩ := splitFrom_eq_some_cons.1 h
    · exact absurd (List.append_eq_nil_iff.1 hnil).2 hback
    cases front with
    | nil =>
      have hjoin : [separator].intercalate back = rest := intercalate_of_splitOutsideQuotes hrest
      rw [List.intercalate_singleton, hjoin]
      exact ⟨rfl, (Scan.eq_start_of_cutsAt hcut).1⟩
    | cons next front =>
      obtain ⟨heq, hafter⟩ := ih hrest (List.cons_ne_nil _ _)
      rw [intercalate_cons_cons, Scan.after_append_cons hcut]
      refine ⟨?_, hafter⟩
      rw [heq]
      simp

/-- A text that leaves the scan as at the start, and a further one behind a separator, are split
into the parts of both. -/
theorem splitOutsideQuotes_join (hseparator : Scan.isPlain separator = true)
    (h : splitOutsideQuotes separator cs = some parts) (hend : Scan.start.after cs = Scan.start)
    (more : List Char) :
    splitOutsideQuotes separator (cs ++ separator :: more) =
      (splitOutsideQuotes separator more).map (parts ++ ·) := by
  induction parts generalizing cs with
  | nil =>
    obtain ⟨_, _, heq⟩ := exists_cons_of_splitFrom h
    cases heq
  | cons part parts ih =>
    obtain ⟨huncut, ⟨rfl, rfl, -⟩ | ⟨rest, rfl, hcut, hrest⟩⟩ := splitFrom_eq_some_cons.1 h
    · refine splitOutsideQuotes_of_cut huncut ?_
      rw [hend]
      exact Scan.cutsAt_start hseparator
    · rw [Scan.after_append_cons hcut] at hend
      rw [List.append_assoc, List.cons_append, splitOutsideQuotes_of_cut huncut hcut,
        ih hrest hend, Option.map_map]
      rfl

/-- A text is cut just behind its beginnings that leave the scan as at the start. -/
theorem isCut_iff (hseparator : Scan.isPlain separator = true)
    (h : splitOutsideQuotes separator cs = some parts) {before behind : List Char} :
    IsCut separator parts before behind ↔
      cs = before ++ separator :: behind ∧ Scan.start.after before = Scan.start := by
  constructor
  · rintro ⟨front, back, hfront, hback, rfl, rfl, rfl⟩
    exact after_front h hfront hback
  -- The text before the separator has parts, since its quotes are ended; they are the first ones of
  -- the whole text.
  · rintro ⟨rfl, hend⟩
    cases hbefore : splitOutsideQuotes separator before with
    | none =>
      rw [splitOutsideQuotes, splitFrom_eq_none_iff, hend] at hbefore
      exact absurd rfl hbefore
    | some front =>
      rw [splitOutsideQuotes_join hseparator hbefore hend] at h
      obtain ⟨back, hback, rfl⟩ := Option.map_eq_some_iff.1 h
      obtain ⟨_, _, rfl⟩ := exists_cons_of_splitFrom hbefore
      obtain ⟨_, _, rfl⟩ := exists_cons_of_splitFrom hback
      exact ⟨_, _, List.cons_ne_nil _ _, List.cons_ne_nil _ _, rfl,
        intercalate_of_splitOutsideQuotes hbefore, intercalate_of_splitOutsideQuotes hback⟩

/-- A part is not split further. -/
theorem splitOutsideQuotes_part (h : splitOutsideQuotes separator cs = some parts) :
    ∀ part ∈ parts, splitOutsideQuotes separator part = some [part] := by
  have hwhole {part : List Char} (huncut : Scan.start.Uncut separator part)
      (hquote : (Scan.start.after part).quote = none) :
      splitOutsideQuotes separator part = some [part] :=
    splitFrom_eq_some_cons.2 ⟨huncut, .inl ⟨rfl, rfl, hquote⟩⟩
  induction parts generalizing cs with
  | nil => exact fun part hpart => absurd hpart List.not_mem_nil
  | cons part parts ih =>
    rw [List.forall_mem_cons]
    obtain ⟨huncut, ⟨rfl, rfl, hquote⟩ | ⟨rest, rfl, hcut, hrest⟩⟩ := splitFrom_eq_some_cons.1 h
    · exact ⟨hwhole huncut hquote, fun part hpart => absurd hpart List.not_mem_nil⟩
    · refine ⟨hwhole huncut ?_, ih hrest⟩
      rw [(Scan.eq_start_of_cutsAt hcut).1]
      rfl

/-- A text has no parts just when it ends inside a quoted string. Otherwise its parts with
separators between them are the text; it is cut at the separators that stand outside quotes and
parentheses, and nowhere else; no part is split further; and behind a text that ends outside quotes
and parentheses, a separator adds the parts of what follows it. -/
theorem splitOutsideQuotes_exact {separator : Char} (hseparator : Scan.isPlain separator = true)
    (cs : List Char) :
    (splitOutsideQuotes separator cs = none ↔ EndsInQuotes cs) ∧
      ∀ parts, splitOutsideQuotes separator cs = some parts →
        [separator].intercalate parts = cs ∧
          (∀ before behind, IsCut separator parts before behind ↔
            cs = before ++ separator :: behind ∧ EndsOutside before) ∧
          (∀ part ∈ parts, splitOutsideQuotes separator part = some [part]) ∧
          (EndsOutside cs → ∀ more, splitOutsideQuotes separator (cs ++ separator :: more) =
            (splitOutsideQuotes separator more).map (parts ++ ·)) := by
  refine ⟨splitFrom_eq_none_iff.trans endsInQuotes_iff.symm, fun parts h => ?_⟩
  refine ⟨intercalate_of_splitOutsideQuotes h, fun before behind => ?_,
    splitOutsideQuotes_part h, fun hend more => ?_⟩
  · rw [isCut_iff hseparator h, endsOutside_iff]
  · exact splitOutsideQuotes_join hseparator h (endsOutside_iff.1 hend) more

/-- An argument list with commas in quotes and in parentheses. -/
def nestedList : List Char := "'a,b',f(x,y),2".toList

/-- The arguments of the list. -/
def nestedItems : List (List Char) := ["'a,b'".toList, "f(x,y)".toList, "2".toList]

/-- The list is cut behind the quoted string and not inside it; behind the list a comma adds the
parts of what follows, and there are none at all when that leaves a quote open. -/
theorem splitOutsideQuotes_exact_nestedList :
    splitOutsideQuotes ',' nestedList = some nestedItems ∧
      IsCut ',' nestedItems "'a,b'".toList "f(x,y),2".toList ∧
      ¬ IsCut ',' nestedItems "'a".toList "b',f(x,y),2".toList ∧
      splitOutsideQuotes ',' (nestedList ++ ',' :: "3".toList) =
        some (nestedItems ++ ["3".toList]) ∧
      splitOutsideQuotes ',' (nestedList ++ ',' :: "'open".toList) = none := by
  have hparts : splitOutsideQuotes ',' nestedList = some nestedItems := by decide +kernel
  have hend : EndsOutside nestedList := endsOutside_iff.2 (by decide +kernel)
  have hquoted : EndsOutside "'a,b'".toList := endsOutside_iff.2 (by decide +kernel)
  have hopen : ¬ EndsOutside "'a".toList := mt endsOutside_iff.1 (by decide +kernel)
  have hcomma : Scan.isPlain ',' = true := by decide
  obtain ⟨-, hexact⟩ := splitOutsideQuotes_exact hcomma nestedList
  obtain ⟨-, hcuts, -, hjoin⟩ := hexact _ hparts
  refine ⟨hparts, (hcuts _ _).2 ⟨rfl, hquoted⟩, fun h => hopen ((hcuts _ _).1 h).2, ?_, ?_⟩
  · rw [hjoin hend]
    decide +kernel
  · rw [hjoin hend]
    decide +kernel

end ChartStyle
