import ChartStyle.Proofs.Parentheses
import ChartStyle.Proofs.PrintedArguments

/-!
# Calls written and read again

`Call.print` joins what its arguments are written as with commas, and the reader cuts at commas
outside quotes and parentheses. A call that was read is read again from its text just when each
argument is faithful and the texts of the arguments are `Separable`: none of them is cut, and each
closes the quotes and parentheses that it opens (`Call.parse_printed_iff`). Texts without an
apostrophe always are separable, since the apostrophe is the quote that the writer uses
(`separable_of_noQuote`).
-/

set_option autoImplicit false

namespace ChartStyle

/-! ## Texts between commas -/

/-- The texts are found again between commas: the scan cuts none of them, stands after each but the
last as at the start, and after the last has no quote open. -/
def Separable : List (List Char) → Prop
  | [] => False
  | [part] => Scan.start.Uncut ',' part ∧ (Scan.start.after part).quote = none
  | part :: parts =>
    Scan.start.Uncut ',' part ∧ Scan.start.after part = Scan.start ∧ Separable parts

theorem separable_cons {part next : List Char} {parts : List (List Char)} :
    Separable (part :: next :: parts) ↔ Scan.start.Uncut ',' part ∧
      Scan.start.after part = Scan.start ∧ Separable (next :: parts) := Iff.rfl

/-- Texts with commas between them are cut into just these texts when they are separable, and only
then. -/
theorem splitOutsideQuotes_intercalate_iff {parts : List (List Char)} :
    splitOutsideQuotes ',' ([','].intercalate parts) = some parts ↔ Separable parts := by
  have hcut : Scan.start.cutsAt ',' ',' = true := rfl
  -- The first part is told from the rest by its cut, and the rest is a text of its own.
  induction parts with
  | nil =>
    refine iff_of_false (fun h => ?_) id
    obtain ⟨_, _, heq⟩ := exists_cons_of_splitFrom h
    cases heq
  | cons part parts ih =>
    rw [splitOutsideQuotes, splitFrom_eq_some_cons]
    cases parts with
    | nil =>
      rw [List.intercalate_singleton]
      refine and_congr_right fun _ => ⟨?_, fun h => .inl ⟨rfl, rfl, h⟩⟩
      rintro (⟨-, -, hquote⟩ | ⟨_, heq, -⟩)
      · exact hquote
      · exact absurd (List.self_eq_append_right.1 heq) (List.cons_ne_nil _ _)
    | cons next parts =>
      rw [intercalate_cons_cons, separable_cons]
      refine and_congr_right fun _ => ⟨?_, ?_⟩
      · rintro (⟨-, hnil, -⟩ | ⟨rest, heq, hstart, hrest⟩)
        · cases hnil
        · cases List.append_cancel_left heq
          exact ⟨(Scan.eq_start_of_cutsAt hstart).1, ih.1 hrest⟩
      · rintro ⟨hstart, hrest⟩
        refine .inr ⟨_, rfl, ?_, ih.2 hrest⟩
        rw [hstart]
        exact hcut

theorem separable_of_neutral {parts : List (List Char)} (hne : parts ≠ [])
    (h : ∀ part ∈ parts, Neutral ',' part) : Separable parts := by
  induction parts with
  | nil => exact absurd rfl hne
  | cons part parts ih =>
    obtain ⟨⟨huncut, hafter⟩, hrest⟩ := List.forall_mem_cons.1 h |>.imp_left fun h => h 0
    cases parts with
    | nil => exact ⟨huncut, congrArg Scan.quote hafter⟩
    | cons next parts => exact ⟨huncut, hafter, ih (List.cons_ne_nil _ _) hrest⟩

/-! ## The same text cut twice -/

theorem eq_nil_of_cons_comma {l bs bs' : List Char} (h : ',' :: bs = l ++ ',' :: bs')
    (hcount : l.count ',' = 0) : l = [] := by
  cases l with
  | nil => rfl
  | cons c l =>
    obtain ⟨rfl, -⟩ := List.cons.inj h
    rw [List.count_cons_self] at hcount
    exact absurd hcount (Nat.succ_ne_zero _)

/-- A text has one comma only with so many commas before it. -/
theorem eq_of_count_comma {as bs as' bs' : List Char} (h : as ++ ',' :: bs = as' ++ ',' :: bs')
    (hcount : as.count ',' = as'.count ',') : as = as' ∧ bs = bs' := by
  have heq : as = as' := by
    -- One of the two goes on where the other ends; what it goes on with holds no comma.
    rcases List.append_eq_append_iff.1 h with ⟨l, rfl, hl⟩ | ⟨l, rfl, hl⟩
    · rw [List.count_append] at hcount
      rw [eq_nil_of_cons_comma hl (by omega), List.append_nil]
    · rw [List.count_append] at hcount
      rw [eq_nil_of_cons_comma hl (by omega), List.append_nil]
  subst heq
  exact ⟨rfl, (List.cons.inj (List.append_cancel_left h)).2⟩

/-- Texts are known from what they are with commas between them and the number of commas in each. -/
theorem eq_of_intercalate {parts parts' : List (List Char)}
    (hcount : List.Forall₂ (fun part part' => part.count ',' = part'.count ',') parts parts')
    (h : [','].intercalate parts = [','].intercalate parts') : parts = parts' := by
  induction hcount with
  | nil => rfl
  | @cons part part' parts parts' hpart hcount ih =>
    cases hcount with
    | nil =>
      rw [List.intercalate_singleton, List.intercalate_singleton] at h
      rw [h]
    | cons hnext hcount =>
      rw [intercalate_cons_cons, intercalate_cons_cons] at h
      obtain ⟨rfl, hrest⟩ := eq_of_count_comma h hpart
      rw [ih hrest]

/-! ## Argument lists -/

/-- What the arguments are written as. -/
def printedParts (args : List Argument) : List (List Char) := args.map fun a => a.print.toList

namespace Argument

/-- What is written for arguments that were read reads as these arguments when all are faithful and
their texts are separable, and only then. -/
theorem parseAll_print_iff {body : List Char} {args : List Argument}
    (h : parseAll body = .ok args) (hne : args ≠ []) :
    parseAll ([','].intercalate (printedParts args)) = .ok args ↔
      (∀ a ∈ args, a.IsFaithful) ∧ Separable (printedParts args) := by
  obtain ⟨-, hnil⟩ | ⟨parts, hparts, hread⟩ := parseAll_eq_ok h
  · exact absurd hnil hne
  constructor
  · intro hprint
    obtain ⟨-, hnil⟩ | ⟨parts', hparts', hread'⟩ := parseAll_eq_ok hprint
    · exact absurd hnil hne
    -- Each part has the commas of the argument that it is read as, so it is what was written.
    have hcount : List.Forall₂ (fun part part' => part.count ',' = part'.count ',') parts'
        (printedParts args) :=
      List.forall₂_map_right_iff.2 (hread'.imp fun _ _ hpart => (count_comma_print hpart).symm)
    obtain rfl := eq_of_intercalate hcount (intercalate_of_splitOutsideQuotes hparts')
    refine ⟨fun a ha => ?_, splitOutsideQuotes_intercalate_iff.1 hparts'⟩
    have hself := List.forall₂_same.1 (List.forall₂_map_left_iff.1 hread') a ha
    exact (parse_print_iff hself).1 hself
  · rintro ⟨hfaithful, hseparable⟩
    refine parseAll_of_split (splitOutsideQuotes_intercalate_iff.2 hseparable) (mapM_eq_ok_iff.2 ?_)
    refine List.forall₂_map_left_iff.2 (List.forall₂_same.2 fun a ha => ?_)
    obtain ⟨part, -, hpart⟩ := exists_mem_of_forall₂ hread ha
    exact (parse_print_iff hpart).2 (hfaithful a ha)

end Argument

/-- What is written for a text is cut nowhere when the text holds no apostrophe. -/
theorem neutral_print_text {s : String} (h : '\'' ∉ s.toList) :
    Neutral ',' (Argument.print (.text s)).toList := by
  by_cases hbare : isBareWord s = true
  · obtain ⟨word, ending, -, hword, hending, hs⟩ := Argument.exists_word_of_isBareWord hbare
    rw [Argument.print_bareWord hbare, hs]
    exact (neutral_of_isBare (.inl rfl) (Argument.isBare_word hword)).append
      (neutral_of_blanks (.inl rfl) hending)
  · rw [Argument.print_quoted hbare]
    exact Neutral.quoted rfl h

/-- Arguments whose texts hold no apostrophe are written as separable texts. -/
theorem separable_of_noQuote {args : List Argument} (hne : args ≠ [])
    (hwritten : ∀ a ∈ args, a.IsWritten)
    (h : ∀ s, Argument.text s ∈ args → '\'' ∉ s.toList) : Separable (printedParts args) := by
  refine separable_of_neutral (mt List.map_eq_nil_iff.1 hne) fun part hpart => ?_
  -- Only texts are written with quotes; everything else is bare.
  obtain ⟨a, ha, rfl⟩ := List.mem_map.1 hpart
  by_cases htext : ∃ s, a = .text s
  · obtain ⟨s, rfl⟩ := htext
    exact neutral_print_text (h s ha)
  · refine neutral_of_isBare (.inl rfl) (Argument.isBare_print (hwritten a ha) fun s heq => ?_)
    exact htext ⟨s, heq⟩

/-! ## Calls -/

namespace Call

theorem print_toList (call : Call) :
    call.print.toList =
      call.primitive.name.toList ++ '(' :: ([','].intercalate (printedParts call.args) ++ [')']) := by
  rw [Call.print, String.toList_append, String.toList_append, String.toList_append,
    String.toList_intercalate, List.map_map, List.append_assoc, List.append_assoc]
  rfl

/-- The name and the arguments are found in what is written for a call. -/
theorem shape?_print (call : Call) :
    shape? call.print.toList =
      some (call.primitive.name.toList, [','].intercalate (printedParts call.args)) := by
  obtain ⟨a, b, hname, ha, hb⟩ := call.primitive.name_letters
  have hnil : Blanks [] := by decide
  have hshape := @shape?_eq a b [] [] ([','].intercalate (printedParts call.args)) [] hnil
    (Text.isAlpha_iff.2 (.inl ha)) (Text.isAlpha_iff.2 (.inl hb)) hnil hnil
  rw [print_toList, hname, ← hshape]
  simp

theorem toUpper_name (primitive : Primitive) :
    primitive.name.toList.map Char.toUpper = primitive.name.toList := by
  cases primitive <;> decide

/-- Every call has an argument. -/
theorem Admissible.args_ne_nil {call : Call} (h : call.Admissible) : call.args ≠ [] := by
  have hfew : 1 ≤ call.primitive.arity.1 := by
    cases call.primitive <;> decide
  exact List.ne_nil_of_length_pos (Nat.le_trans hfew h.few)

/-- A call that was read is read again from what is written for it when each of its arguments is
faithful and their texts are separable, and only then. -/
theorem parse_printed_iff {text : String} {rule : Option String} {call : Call}
    (h : Call.parse text rule = .ok call) (rule' : Option String) :
    Call.parse call.print rule' = .ok call ↔
      (∀ a ∈ call.args, a.IsFaithful) ∧ Separable (printedParts call.args) := by
  obtain ⟨letters, body, -, hread⟩ := isRead_of_parse h
  rw [← Argument.parseAll_print_iff hread.args hread.admissible.args_ne_nil]
  -- The name and the count are those of a call that was read, so the argument list decides.
  constructor
  · intro hprint
    obtain ⟨_, _, hshape, hread'⟩ := isRead_of_parse hprint
    rw [shape?_print] at hshape
    cases hshape
    exact hread'.args
  · intro hargs
    refine parse_of_shape (shape?_print call) ?_ hargs hread.admissible rule'
    rw [toUpper_name, String.ofList_toList]
    exact call.primitive.ofName?_name

/-! ## A call that is read again, and one that is not -/

/-- A name and its style, with blanks, both quotes and a decimal. -/
def spacedText : String := "tx( OBJNAM, \"off by 7, at least\" ,2.50,CHBLK )"

/-- The call that the text is read as. -/
def spacedCall : Call :=
  ⟨.tx, [.attribute "OBJNAM", .text "off by 7, at least",
    .literal (.real (Double.ofDecimal false 250 (-2))), .text "CHBLK"]⟩

set_option maxRecDepth 10000 in
theorem parse_printed_iff_spacedCall :
    Call.parse spacedText none = .ok spacedCall ∧
      Call.parse spacedCall.print none = .ok spacedCall := by
  have hread : Call.parse spacedText none = .ok spacedCall := by
    with_unfolding_all rfl
  have hreal : Double.WrittenInFull (Double.ofDecimal false 250 (-2)) := by
    decide +kernel
  have hnoQuote : ∀ s, Argument.text s ∈ spacedCall.args → '\'' ∉ s.toList := by
    intro s hs
    simp only [spacedCall, List.mem_cons, List.not_mem_nil, or_false] at hs
    rcases hs with hs | hs | hs | hs <;> cases hs <;> decide
  obtain ⟨_, _, -, hbody⟩ := isRead_of_parse hread
  refine ⟨hread, (parse_printed_iff hread none).2 ⟨?_, ?_⟩⟩
  · simp only [spacedCall, List.forall_mem_cons, List.not_mem_nil, false_imp_iff, implies_true]
    exact ⟨trivial, fun hbare => absurd hbare (by decide), hreal,
      fun _ => ⟨List.all_eq_true.1 (by decide), ⟨'C', by decide, rfl⟩, by decide⟩, trivial⟩
  · exact separable_of_noQuote (List.cons_ne_nil _ _) (Argument.isWritten_of_parseAll hbody.args)
      hnoQuote

/-- The name of an object in a style of characters that is given as a text. -/
def styledText : String := "TX(OBJNAM,1,2,3,'15112')"

/-- The call that the text is read as. -/
def styledCall : Call := ⟨.tx, [.attribute "OBJNAM", .int 1, .int 2, .int 3, .text "15112"]⟩

set_option maxRecDepth 10000 in
/-- The text of digits is written without quotes, so it is read again as a whole number. -/
theorem parse_printed_digits :
    Call.parse styledText none = .ok styledCall ∧
      Call.parse styledCall.print none ≠ .ok styledCall := by
  refine ⟨by with_unfolding_all rfl, ?_⟩
  have hprint : Call.parse styledCall.print none =
      .ok ⟨.tx, [.attribute "OBJNAM", .int 1, .int 2, .int 3, .int 15112]⟩ := by
    with_unfolding_all rfl
  rw [hprint]
  intro h
  cases h

end Call

end ChartStyle
