import ChartStyle.Proofs.ArgumentSpelling

/-!
# The spellings of an instruction string

A call is spelled by its name in letters of either case, a parenthesis, the spellings of its
arguments between commas, and a parenthesis; an instruction string by the spellings of its calls
between semicolons. Blanks may stand between all of these, and blank parts between the calls.
Whatever the spelling, the calls are read back exactly (`parseInstructions_spelling`).
-/

set_option autoImplicit false

namespace ChartStyle

/-! ## Spellings -/

/-- The spellings of arguments between commas. -/
inductive ArgumentsSpelling : List Argument → List Char → Prop where
  | last {a : Argument} {cs : List Char} (h : a.Spelling cs) : ArgumentsSpelling [a] cs
  | cons {a : Argument} {args : List Argument} {cs rest : List Char} (h : a.Spelling cs)
      (hrest : ArgumentsSpelling args rest) : ArgumentsSpelling (a :: args) (cs ++ ',' :: rest)

namespace Call

/-- A call with a fitting number of arguments, and a known procedure where it names one. -/
structure Admissible (call : Call) : Prop where
  few : call.primitive.arity.1 ≤ call.args.length
  many : call.args.length ≤ call.primitive.arity.2
  procedure : call.primitive = .cs →
    ∀ a ∈ call.args.head?, (Procedure.ofName? a.token).isSome = true

/-- The spellings of one call. -/
inductive Spelling : Call → List Char → Prop where
  | mk {primitive : Primitive} {args : List Argument}
      {before letters between body after : List Char}
      (hbefore : Blanks before) (hletters : letters.map Char.toUpper = primitive.name.toList)
      (hbetween : Blanks between) (hbody : ArgumentsSpelling args body) (hafter : Blanks after) :
      Spelling ⟨primitive, args⟩ (before ++ letters ++ between ++ '(' :: body ++ ')' :: after)

end Call

/-- The spellings of calls between semicolons, with blank parts anywhere. -/
inductive CallsSpelling : List Call → List Char → Prop where
  | blank {cs : List Char} (h : Blanks cs) : CallsSpelling [] cs
  | last {call : Call} {cs : List Char} (h : call.Spelling cs) : CallsSpelling [call] cs
  | skip {calls : List Call} {cs rest : List Char} (h : Blanks cs)
      (hrest : CallsSpelling calls rest) : CallsSpelling calls (cs ++ ';' :: rest)
  | cons {call : Call} {calls : List Call} {cs rest : List Char} (h : call.Spelling cs)
      (hrest : CallsSpelling calls rest) : CallsSpelling (call :: calls) (cs ++ ';' :: rest)

/-! ## Arguments -/

theorem ArgumentsSpelling.neutral {args : List Argument} {body : List Char}
    (h : ArgumentsSpelling args body) : Neutral ';' body := by
  induction h with
  | last h => exact h.neutral (.inr rfl)
  | cons h _ ih =>
    exact (h.neutral (.inr rfl)).append (Neutral.cons (by decide) (by decide) ih)

/-- The parts between the commas are read as the arguments. -/
theorem ArgumentsSpelling.split {args : List Argument} {body : List Char}
    (h : ArgumentsSpelling args body) :
    ∃ parts, splitOutsideQuotes ',' body = some parts ∧ parts.mapM Argument.parse = .ok args := by
  induction h with
  | @last a cs h =>
    refine ⟨[cs], splitOutsideQuotes_neutral (h.neutral (.inl rfl)), ?_⟩
    rw [List.mapM_cons, h.parse_eq]
    rfl
  | @cons a args cs rest h _ ih =>
    obtain ⟨parts, hsplit, hparse⟩ := ih
    refine ⟨cs :: parts, ?_, ?_⟩
    · rw [splitOutsideQuotes_append_cons (by decide) (h.neutral (.inl rfl)), hsplit]
      rfl
    · rw [List.mapM_cons, h.parse_eq, hparse]
      rfl

namespace Argument

/-- Nothing is read from blanks. -/
theorem not_blanks_of_parse {cs : List Char} {a : Argument} (h : parse cs = .ok a) :
    ¬ Blanks cs := by
  intro hblank
  have htrim : Text.trim cs = [] := by
    rw [Text.trim, Text.stripWhile, List.dropWhile_eq_nil_iff.2 hblank]
    rfl
  rw [parse, htrim] at h
  cases h

/-- An argument list is read part by part. -/
theorem parseAll_of_split {body : List Char} {parts : List (List Char)} {args : List Argument}
    (hsplit : splitOutsideQuotes ',' body = some parts) (hread : parts.mapM parse = .ok args) :
    parseAll body = .ok args := by
  have hblank : ¬ body.all Text.isBlank = true := by
    intro hall
    have hbody : Blanks body := List.all_eq_true.1 hall
    -- Blanks would be a part of their own, and nothing is read from them.
    rw [splitOutsideQuotes_neutral (neutral_of_blanks (.inl rfl) hbody)] at hsplit
    cases hsplit
    cases hfirst : parse body with
    | error fault =>
      rw [List.mapM_cons, hfirst] at hread
      cases hread
    | ok a => exact not_blanks_of_parse hfirst hbody
  rw [parseAll, if_neg hblank, hsplit]
  exact hread

end Argument

/-- An argument list is read as the arguments that it spells. -/
theorem ArgumentsSpelling.parseAll_eq {args : List Argument} {body : List Char}
    (h : ArgumentsSpelling args body) : Argument.parseAll body = .ok args := by
  obtain ⟨parts, hsplit, hparse⟩ := h.split
  exact Argument.parseAll_of_split hsplit hparse

/-! ## Calls -/

theorem Primitive.ofName?_name (primitive : Primitive) :
    Primitive.ofName? primitive.name = some primitive := by
  cases primitive <;> decide +kernel

/-- A name is two upper-case letters. -/
theorem Primitive.name_letters (primitive : Primitive) :
    ∃ a b, primitive.name.toList = [a, b] ∧ a.isUpper = true ∧ b.isUpper = true := by
  cases primitive <;> exact ⟨_, _, rfl, by decide, by decide⟩

theorem isAlpha_of_isUpper_toUpper {c : Char} (h : c.toUpper.isUpper = true) :
    c.isAlpha = true := by
  rw [Text.isAlpha_iff, Text.isUpper_iff, Text.isLower_iff]
  unfold Char.toUpper at h
  split at h
  case isTrue hlower => exact .inr hlower
  case isFalse _ => exact .inl (Text.isUpper_iff.1 h)

/-- The letters that spell a name. -/
theorem letters_of_name {primitive : Primitive} {letters : List Char}
    (h : letters.map Char.toUpper = primitive.name.toList) :
    ∃ a b, letters = [a, b] ∧ a.isAlpha = true ∧ b.isAlpha = true := by
  obtain ⟨x, y, hname, hx, hy⟩ := primitive.name_letters
  rw [hname] at h
  obtain ⟨a, rest, rfl, ha, h⟩ := List.map_eq_cons_iff.1 h
  obtain ⟨b, rest, rfl, hb, h⟩ := List.map_eq_cons_iff.1 h
  rw [List.map_eq_nil_iff.1 h]
  refine ⟨a, b, rfl, isAlpha_of_isUpper_toUpper ?_, isAlpha_of_isUpper_toUpper ?_⟩
  · rw [ha]
    exact hx
  · rw [hb]
    exact hy

theorem isBare_of_isAlpha {c : Char} (h : c.isAlpha = true) : isBare c = true :=
  isBare_of_isWordChar (by simp [isWordChar, Char.isAlphanum, h])

namespace Call

/-- The name and the argument list of a spelled call are found. -/
theorem shape?_eq {a b : Char} {before between body after : List Char} (hbefore : Blanks before)
    (ha : a.isAlpha = true) (hb : b.isAlpha = true) (hbetween : Blanks between)
    (hafter : Blanks after) :
    shape? (before ++ [a, b] ++ between ++ '(' :: body ++ ')' :: after) = some ([a, b], body) := by
  have hname : (before ++ [a, b] ++ between ++ '(' :: body ++ ')' :: after).dropWhile Text.isBlank =
      a :: b :: (between ++ '(' :: (body ++ ')' :: after)) := by
    simp only [List.append_assoc, List.cons_append, List.nil_append]
    exact dropWhile_blanks_cons hbefore (isBlank_of_isBare (isBare_of_isAlpha ha)) _
  have hopen : (between ++ '(' :: (body ++ ')' :: after)).dropWhile Text.isBlank =
      '(' :: (body ++ ')' :: after) := dropWhile_blanks_cons hbetween (by decide) _
  have hclose : (body ++ ')' :: after).reverse.dropWhile Text.isBlank = ')' :: body.reverse := by
    simp only [List.reverse_append, List.reverse_cons, List.append_assoc, List.singleton_append]
    exact dropWhile_blanks_cons hafter.reverse (by decide) _
  unfold shape?
  simp only [hname, ha, hb, Bool.and_self, if_true, hopen, hclose, List.reverse_reverse]

theorem Spelling.neutral {call : Call} {cs : List Char} (h : call.Spelling cs) :
    Neutral ';' cs := by
  cases h with
  | @mk _ _ before letters between body after hbefore hletters hbetween hbody hafter =>
  obtain ⟨a, b, rfl, ha, hb⟩ := letters_of_name hletters
  have hblanks {cs : List Char} (h : Blanks cs) : Neutral ';' cs := neutral_of_blanks (.inr rfl) h
  have hname : Neutral ';' [a, b] := by
    refine neutral_of_isBare (.inr rfl) fun c hc => ?_
    simp only [List.mem_cons, List.not_mem_nil, or_false] at hc
    rcases hc with rfl | rfl
    · exact isBare_of_isAlpha ha
    · exact isBare_of_isAlpha hb
  have hargs := (Neutral.parenthesised hbody.neutral).append (hblanks hafter)
  have hall := (((hblanks hbefore).append hname).append (hblanks hbetween)).append hargs
  simpa only [List.append_assoc, List.cons_append, List.nil_append] using hall

theorem Spelling.not_blank {call : Call} {cs : List Char} (h : call.Spelling cs) :
    ¬ cs.all Text.isBlank = true := by
  cases h with
  | @mk _ _ before letters between body after _ _ _ _ _ =>
  intro hall
  have hopen := List.all_eq_true.1 hall '(' (by simp)
  exact absurd hopen (by decide)

/-- A text in the shape of a call is read as the call with that name and these arguments. -/
theorem parse_of_shape {text : String} {letters body : List Char} {call : Call}
    (hshape : shape? text.toList = some (letters, body))
    (hname : Primitive.ofName? (String.ofList (letters.map Char.toUpper)) = some call.primitive)
    (hargs : Argument.parseAll body = .ok call.args) (hcall : call.Admissible)
    (rule : Option String) : Call.parse text rule = .ok call := by
  obtain ⟨primitive, args⟩ := call
  have hcount : ¬ (args.length < primitive.arity.1 ∨ primitive.arity.2 < args.length) := by
    have hfew := hcall.few
    have hmany := hcall.many
    simp only at hfew hmany
    omega
  unfold Call.parse
  simp only [hshape, hname, hargs, if_neg hcount]
  split
  · next first rest =>
    rw [if_pos (hcall.procedure rfl first rfl)]
  · rfl

/-- A call is read as it was spelled. -/
theorem Spelling.parse_eq {call : Call} {cs : List Char} (h : call.Spelling cs)
    (hcall : call.Admissible) (rule : Option String) :
    Call.parse (String.ofList cs) rule = .ok call := by
  cases h with
  | @mk primitive args before letters between body after hbefore hletters hbetween hbody hafter =>
  obtain ⟨a, b, rfl, ha, hb⟩ := letters_of_name hletters
  have hname : Primitive.ofName? (String.ofList ([a, b].map Char.toUpper)) = some primitive := by
    rw [hletters, String.ofList_toList]
    exact primitive.ofName?_name
  refine parse_of_shape ?_ hname hbody.parseAll_eq hcall rule
  rw [String.toList_ofList]
  exact shape?_eq hbefore ha hb hbetween hafter

end Call

/-! ## Instruction strings -/

/-- The parts between the semicolons that are not blank are read as the calls. -/
theorem CallsSpelling.split {calls : List Call} {cs : List Char} (h : CallsSpelling calls cs)
    (hcalls : ∀ call ∈ calls, call.Admissible) (rule : Option String) :
    ∃ parts, splitOutsideQuotes ';' cs = some parts ∧
      ((parts.filter fun part => !part.all Text.isBlank).mapM fun part =>
        Call.parse (String.ofList part) rule) = .ok calls := by
  induction h with
  | @blank cs h =>
    refine ⟨[cs], splitOutsideQuotes_neutral (neutral_of_blanks (.inr rfl) h), ?_⟩
    rw [List.filter_cons_of_neg (by simp [List.all_eq_true.2 h])]
    rfl
  | @last call cs h =>
    refine ⟨[cs], splitOutsideQuotes_neutral h.neutral, ?_⟩
    rw [List.filter_cons_of_pos (by simp [h.not_blank]), List.mapM_cons,
      h.parse_eq (hcalls call List.mem_cons_self)]
    rfl
  | @skip calls cs rest h _ ih =>
    obtain ⟨parts, hsplit, hparse⟩ := ih hcalls
    refine ⟨cs :: parts, ?_, ?_⟩
    · rw [splitOutsideQuotes_append_cons (by decide) (neutral_of_blanks (.inr rfl) h), hsplit]
      rfl
    · rw [List.filter_cons_of_neg (by simp [List.all_eq_true.2 h])]
      exact hparse
  | @cons call calls cs rest h _ ih =>
    obtain ⟨parts, hsplit, hparse⟩ := ih fun c hc => hcalls c (List.mem_cons_of_mem call hc)
    refine ⟨cs :: parts, ?_, ?_⟩
    · rw [splitOutsideQuotes_append_cons (by decide) h.neutral, hsplit]
      rfl
    · rw [List.filter_cons_of_pos (by simp [h.not_blank]), List.mapM_cons,
        h.parse_eq (hcalls call List.mem_cons_self), hparse]
      rfl

theorem CallsSpelling.eq_nil_of_blank {calls : List Call} {cs : List Char}
    (h : CallsSpelling calls cs) (hblank : cs.all Text.isBlank = true) : calls = [] := by
  cases h with
  | blank _ => rfl
  | last h => exact absurd hblank h.not_blank
  | skip _ _ | cons _ _ =>
    exact absurd (List.all_eq_true.1 hblank ';' (by simp)) (by decide)

/-- Every spelling of some calls is read as these calls, whatever the letter case of the names, the
signs and quotes, the blanks and the empty parts. -/
theorem parseInstructions_spelling {calls : List Call} {text : String} (rule : Option String)
    (hcalls : ∀ call ∈ calls, call.Admissible) (h : CallsSpelling calls text.toList) :
    parseInstructions text rule = .ok calls := by
  unfold parseInstructions
  by_cases hblank : Text.isBlankText text = true
  · rw [if_pos hblank, h.eq_nil_of_blank hblank]
  · obtain ⟨parts, hsplit, hparse⟩ := h.split hcalls rule
    rw [if_neg hblank, hsplit]
    exact hparse

/-! ## A crowded text -/

/-- Three calls among blanks and empty parts, with separators, a parenthesis and quotes in their
strings. -/
def crowdedText : String :=
  " tX (OBJNAM,'a;b,(\"c' , +07,.50);;\n\tcs(LIGHTS05) ; Sy(\"it's\",BOY_1) "

/-- The calls that `crowdedText` spells. -/
def crowdedCalls : List Call :=
  [⟨.tx, [.attribute "OBJNAM", .text "a;b,(\"c", .int 7,
      .literal (.real (Double.ofDecimal false 50 (-2)))]⟩,
    ⟨.cs, [.text "LIGHTS05"]⟩, ⟨.sy, [.text "it's", .text "BOY_1"]⟩]

theorem crowdedCalls_admissible : ∀ call ∈ crowdedCalls, call.Admissible := by
  intro call hcall
  simp only [crowdedCalls, List.mem_cons, List.not_mem_nil, or_false] at hcall
  rcases hcall with rfl | rfl | rfl
  · exact ⟨by decide, by decide, by decide⟩
  · refine ⟨by decide, by decide, fun _ a ha => ?_⟩
    cases ha
    decide +kernel
  · exact ⟨by decide, by decide, by decide⟩

/-- Around a token there may be no blanks, or some. -/
theorem Argument.Token.spelling {a : Argument} {token : List Char} (h : a.Token token)
    (before after : List Char) (hbefore : Blanks before) (hafter : Blanks after) :
    a.Spelling (before ++ token ++ after) := .mk hbefore h hafter

theorem crowdedText_spelling : CallsSpelling crowdedCalls crowdedText.toList := by
  have hcode : Argument.Token (.attribute "OBJNAM") "OBJNAM".toList :=
    .code (by decide) (List.all_eq_true.1 (by decide))
  have htext : Argument.Token (.text "a;b,(\"c") "'a;b,(\"c'".toList :=
    @Argument.Token.quoted '\'' "a;b,(\"c".toList (by decide) (by decide)
  have hwhole : Argument.Token (.int 7) "+07".toList :=
    @Argument.Token.whole _ _ ['0', '7'] 7 .plus (by decide) (List.all_eq_true.1 (by decide))
      (by decide) (by decide)
  have hdecimal : Argument.Token (.literal (.real (Double.ofDecimal false 50 (-2)))) ".50".toList :=
    @Argument.Token.decimal _ _ [] ['5', '0'] _ .none (by decide)
      (List.all_eq_true.1 (by decide)) (List.all_eq_true.1 (by decide)) rfl
  have htx : Call.Spelling ⟨.tx, _⟩ " tX (OBJNAM,'a;b,(\"c' , +07,.50)".toList :=
    @Call.Spelling.mk _ _ [' '] ['t', 'X'] [' '] _ [] (by decide) (by decide) (by decide)
      (.cons (hcode.spelling [] [] (by decide) (by decide))
        (.cons (htext.spelling [] [' '] (by decide) (by decide))
          (.cons (hwhole.spelling [' '] [] (by decide) (by decide))
            (.last (hdecimal.spelling [] [] (by decide) (by decide)))))) (by decide)
  have hprocedure : Argument.Token (.text "LIGHTS05") "LIGHTS05".toList :=
    .word (List.all_eq_true.1 (by decide)) ⟨'L', by decide, rfl⟩ fun h => absurd h.1 (by decide)
  have hcs : Call.Spelling ⟨.cs, _⟩ "\n\tcs(LIGHTS05) ".toList :=
    @Call.Spelling.mk _ _ ['\n', '\t'] ['c', 's'] [] _ [' '] (by decide) (by decide) (by decide)
      (.last (hprocedure.spelling [] [] (by decide) (by decide))) (by decide)
  have hquoted : Argument.Token (.text "it's") "\"it's\"".toList :=
    @Argument.Token.quoted '"' "it's".toList (by decide) (by decide)
  have hword : Argument.Token (.text "BOY_1") "BOY_1".toList :=
    .word (List.all_eq_true.1 (by decide)) ⟨'B', by decide, rfl⟩ fun h => absurd h.1 (by decide)
  have hsy : Call.Spelling ⟨.sy, _⟩ " Sy(\"it's\",BOY_1) ".toList :=
    @Call.Spelling.mk _ _ [' '] ['S', 'y'] [] _ [' '] (by decide) (by decide) (by decide)
      (.cons (hquoted.spelling [] [] (by decide) (by decide))
        (.last (hword.spelling [] [] (by decide) (by decide)))) (by decide)
  have hskip := @CallsSpelling.skip _ [] _ (by decide) (.cons hcs (.last hsy))
  exact .cons htx hskip

theorem parseInstructions_spelling_crowdedText :
    CallsSpelling crowdedCalls crowdedText.toList ∧
      parseInstructions crowdedText (some "BOYLAT") = .ok crowdedCalls :=
  ⟨crowdedText_spelling,
    parseInstructions_spelling (some "BOYLAT") crowdedCalls_admissible crowdedText_spelling⟩

end ChartStyle
