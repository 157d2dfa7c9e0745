import ChartStyle.Proofs.CanonicalOrder
import ChartStyle.Proofs.InstructionSpelling
import ChartStyle.Proofs.ReadLists

/-!
# Calls that were read

Reading turned around: what an instruction string that was accepted looks like, and what holds of
the calls that came of it. The string is cut into parts; each part that is not blank has the shape
of a call, and each call has the arguments that its name admits
(`exists_parts_of_parseInstructions`, `Call.isRead_of_parse`). A string that is refused is refused
with a configuration problem that names the rule (`parseInstructions_eq_error`).
-/

set_option autoImplicit false

namespace ChartStyle

/-! ## Arguments -/

namespace Argument

/-- The arguments that instruction strings have: a literal text, whole number or double, or an
attribute code of six upper-case letters. -/
inductive IsWritten : Argument → Prop where
  | text (s : String) : IsWritten (.text s)
  | int (n : Int) : IsWritten (.int n)
  | real (x : Double) : IsWritten (.literal (.real x))
  | attribute {code : String} (hlength : code.toList.length = 6)
      (hupper : ∀ c ∈ code.toList, 'A' ≤ c ∧ c ≤ 'Z') : IsWritten (.attribute code)

theorem mem_signed {cs : List Char} {c : Char} (hc : c ∈ cs) :
    c = '-' ∨ c = '+' ∨ c ∈ (Text.signed cs).2 := by
  unfold Text.signed
  split
  · rcases List.mem_cons.1 hc with rfl | hc
    · exact .inl rfl
    · exact .inr (.inr hc)
  · rcases List.mem_cons.1 hc with rfl | hc
    · exact .inr (.inl rfl)
    · exact .inr (.inr hc)
  · exact .inr (.inr hc)

/-- A number has digits, a sign and a point, and nothing else. -/
theorem mem_numeral? {cs : List Char} {found : Bool × List Char × Option (List Char)}
    (h : numeral? cs = some found) :
    ∀ c ∈ cs, Text.isDecimal c = true ∨ c = '-' ∨ c = '+' ∨ c = '.' := by
  have hrest : ∀ c ∈ (Text.signed cs).2.dropWhile Text.isDecimal,
      Text.isDecimal c = true ∨ c = '.' := by
    unfold numeral? at h
    dsimp only at h
    split at h
    · next hnil =>
      rw [hnil]
      exact fun c hc => absurd hc List.not_mem_nil
    · next fraction hpoint =>
      split at h
      · next hfraction =>
        rw [Bool.and_eq_true, List.all_eq_true] at hfraction
        rw [hpoint]
        intro c hc
        rcases List.mem_cons.1 hc with rfl | hc
        · exact .inr rfl
        · exact .inl (hfraction.1 c hc)
      · cases h
    · cases h
  intro c hc
  rcases mem_signed hc with hminus | hplus | hc
  · exact .inr (.inl hminus)
  · exact .inr (.inr (.inl hplus))
  · rw [← List.takeWhile_append_dropWhile (p := Text.isDecimal) (l := (Text.signed cs).2)] at hc
    rcases List.mem_append.1 hc with hc | hc
    · exact .inl (List.mem_takeWhile_imp hc)
    · exact (hrest c hc).imp_right fun hpoint => .inr (.inr hpoint)

theorem eq_of_unquoted? {token contents : List Char} (h : unquoted? token = some contents) :
    ∃ quote, Scan.isQuote quote = true ∧ token = quote :: contents ++ [quote] := by
  unfold unquoted? at h
  split at h
  · next quote c cs =>
    split at h
    · next hquote =>
      cases h
      rw [Bool.and_eq_true, beq_iff_eq] at hquote
      refine ⟨quote, hquote.1, ?_⟩
      rw [List.cons_append, List.dropLast_append_getLast? quote hquote.2]
    · cases h
  · cases h

theorem mem_trim {cs : List Char} {c : Char} (hc : c ∈ cs) :
    Text.isBlank c = true ∨ c ∈ Text.trim cs := by
  have hdrop {cs : List Char} (hc : c ∈ cs) :
      Text.isBlank c = true ∨ c ∈ cs.dropWhile Text.isBlank := by
    rw [← List.takeWhile_append_dropWhile (p := Text.isBlank) (l := cs)] at hc
    rcases List.mem_append.1 hc with hc | hc
    · exact .inl (List.mem_takeWhile_imp hc)
    · exact .inr hc
  rcases hdrop hc with hblank | hc
  · exact .inl hblank
  · rcases hdrop (List.mem_reverse.2 hc) with hblank | hc
    · exact .inl hblank
    · exact .inr (List.mem_reverse.2 hc)

theorem isWritten_of_number? {cs : List Char} {v : Value} (h : number? cs = some v) :
    IsWritten (.literal v) := by
  obtain ⟨⟨negative, whole, fraction⟩, -, rfl⟩ := Option.map_eq_some_iff.1 h
  dsimp only
  split
  · exact .int _
  · exact .real _

theorem isWritten_of_isAttributeCode {cs : List Char} (h : isAttributeCode cs = true) :
    IsWritten (.attribute (String.ofList cs)) := by
  rw [isAttributeCode, Bool.and_eq_true, beq_iff_eq, List.all_eq_true] at h
  obtain ⟨hlength, hupper⟩ := h
  refine .attribute ?_ ?_
  · rw [String.toList_ofList]
    exact hlength
  · intro c hc
    rw [String.toList_ofList] at hc
    exact decide_eq_true_iff.1 (hupper c hc)

/-- A token that is read is a quoted string, a number, an attribute code, or a bare text. -/
theorem parse_cases {cs : List Char} {a : Argument} (h : parse cs = .ok a) :
    (∃ contents, unquoted? (Text.trim cs) = some contents ∧ a = .text (String.ofList contents)) ∨
      (∃ v, number? (Text.trim cs) = some v ∧ a = .literal v) ∨
      (isAttributeCode (Text.trim cs) = true ∧ a = .attribute (String.ofList (Text.trim cs))) ∨
      a = .text (String.ofList (Text.trim cs)) := by
  have hne : Text.trim cs ≠ [] := by
    intro hnil
    rw [parse, hnil] at h
    cases h
  rw [parse_of_token rfl hne] at h
  split at h
  · next contents hquoted =>
    cases h
    exact .inl ⟨contents, hquoted, rfl⟩
  · split at h
    · next v hnumber =>
      cases h
      exact .inr (.inl ⟨v, hnumber, rfl⟩)
    · split at h
      · next hcode =>
        cases h
        exact .inr (.inr (.inl ⟨hcode, rfl⟩))
      · cases h
        exact .inr (.inr (.inr rfl))

/-- What is read from a token is an argument that instruction strings have. -/
theorem isWritten_of_parse {cs : List Char} {a : Argument} (h : parse cs = .ok a) :
    a.IsWritten := by
  rcases parse_cases h with ⟨contents, -, rfl⟩ | ⟨v, hnumber, rfl⟩ | ⟨hcode, rfl⟩ | rfl
  · exact .text _
  · exact isWritten_of_number? hnumber
  · exact isWritten_of_isAttributeCode hcode
  · exact .text _

/-- An argument list that is read is blank, or it is cut into the tokens of the arguments. -/
theorem parseAll_eq_ok {body : List Char} {args : List Argument} (h : parseAll body = .ok args) :
    (Blanks body ∧ args = []) ∨ ∃ parts, splitOutsideQuotes ',' body = some parts ∧
      List.Forall₂ (fun part a => parse part = .ok a) parts args := by
  rw [parseAll] at h
  by_cases hblank : body.all Text.isBlank = true
  · rw [if_pos hblank] at h
    cases h
    exact .inl ⟨List.all_eq_true.1 hblank, rfl⟩
  · rw [if_neg hblank] at h
    cases hparts : splitOutsideQuotes ',' body with
    | none =>
      rw [hparts] at h
      cases h
    | some parts =>
      rw [hparts] at h
      exact .inr ⟨parts, rfl, mapM_eq_ok_iff.1 h⟩

theorem isWritten_of_parseAll {body : List Char} {args : List Argument}
    (h : parseAll body = .ok args) : ∀ a ∈ args, a.IsWritten := by
  intro a ha
  rcases parseAll_eq_ok h with ⟨-, rfl⟩ | ⟨parts, -, hparts⟩
  · cases ha
  · obtain ⟨part, -, hpart⟩ := exists_mem_of_forall₂ hparts ha
    exact isWritten_of_parse hpart

end Argument

/-! ## Calls -/

namespace Call

/-- The call is read from two letters and an argument list. -/
structure IsRead (call : Call) (letters body : List Char) : Prop where
  name : Primitive.ofName? (String.ofList (letters.map Char.toUpper)) = some call.primitive
  args : Argument.parseAll body = .ok call.args
  admissible : call.Admissible

/-- A text that is read has the shape of a call, and the call is one that its name admits. -/
theorem isRead_of_parse {text : String} {rule : Option String} {call : Call}
    (h : Call.parse text rule = .ok call) :
    ∃ letters body, shape? text.toList = some (letters, body) ∧ call.IsRead letters body := by
  unfold Call.parse at h
  cases hshape : shape? text.toList with
  | none =>
    simp only [hshape] at h
    cases h
  | some found =>
    obtain ⟨letters, body⟩ := found
    refine ⟨letters, body, rfl, ?_⟩
    simp only [hshape] at h
    cases hname : Primitive.ofName? (String.ofList (letters.map Char.toUpper)) with
    | none =>
      simp only [hname] at h
      cases h
    | some primitive =>
      simp only [hname] at h
      cases hargs : Argument.parseAll body with
      | error fault =>
        simp only [hargs] at h
        cases h
      | ok args =>
        simp only [hargs] at h
        by_cases hcount : args.length < primitive.arity.1 ∨ primitive.arity.2 < args.length
        · rw [if_pos hcount] at h
          cases h
        · rw [if_neg hcount] at h
          have hfew : primitive.arity.1 ≤ args.length := by omega
          have hmany : args.length ≤ primitive.arity.2 := by omega
          -- Only a call of a procedure has its first argument looked up.
          split at h
          · next first rest =>
            by_cases hknown : (Procedure.ofName? first.token).isSome = true
            · rw [if_pos hknown] at h
              cases h
              refine ⟨hname, hargs, hfew, hmany, ?_⟩
              rintro - a ⟨⟩
              exact hknown
            · rw [if_neg hknown] at h
              cases h
          · next hother =>
            cases h
            refine ⟨hname, hargs, hfew, hmany, ?_⟩
            intro hcs a ha
            obtain ⟨rest, hrest⟩ := List.head?_eq_some_iff.1 ha
            exact absurd hrest (hother a rest hcs)

/-- A text that is not read is refused with a problem of the rule. -/
theorem parse_eq_error {text : String} {rule : Option String} {fault : Fault}
    (h : Call.parse text rule = .error fault) :
    ∃ problem, fault = .configuration problem rule := by
  unfold Call.parse at h
  dsimp only at h
  -- Every way out of the reader but its last refuses the text.
  repeat' split at h
  all_goals cases h
  all_goals exact ⟨_, rfl⟩

end Call

/-! ## Instruction strings -/

/-- The parts of an instruction string that are not blank. -/
def statedParts (parts : List (List Char)) : List (List Char) :=
  parts.filter fun part => !part.all Text.isBlank

/-- An instruction string that is read is cut into parts, and those that are not blank are read as
the calls. -/
theorem exists_parts_of_parseInstructions {text : String} {rule : Option String} {calls : List Call}
    (h : parseInstructions text rule = .ok calls) :
    ∃ parts, splitOutsideQuotes ';' text.toList = some parts ∧
      List.Forall₂ (fun part call => Call.parse (String.ofList part) rule = .ok call)
        (statedParts parts) calls := by
  rw [parseInstructions] at h
  by_cases hblank : Text.isBlankText text = true
  · -- A blank text is its only part, which is passed over.
    rw [if_pos hblank] at h
    cases h
    refine ⟨[text.toList], ?_, ?_⟩
    · exact splitOutsideQuotes_neutral (neutral_of_blanks (.inr rfl) (List.all_eq_true.1 hblank))
    · have hstated : statedParts [text.toList] = [] := by
        rw [statedParts, List.filter_cons_of_neg (by simpa [Text.isBlankText] using hblank)]
        rfl
      rw [hstated]
      exact .nil
  · rw [if_neg hblank] at h
    cases hparts : splitOutsideQuotes ';' text.toList with
    | none =>
      rw [hparts] at h
      cases h
    | some parts =>
      rw [hparts] at h
      exact ⟨parts, rfl, mapM_eq_ok_iff.1 h⟩

/-- An instruction string that is not read is refused with a problem of the rule. -/
theorem parseInstructions_eq_error {text : String} {rule : Option String} {fault : Fault}
    (h : parseInstructions text rule = .error fault) :
    ∃ problem, fault = .configuration problem rule := by
  rw [parseInstructions] at h
  by_cases hblank : Text.isBlankText text = true
  · rw [if_pos hblank] at h
    cases h
  · rw [if_neg hblank] at h
    cases hparts : splitOutsideQuotes ';' text.toList with
    | none =>
      rw [hparts] at h
      cases h
      exact ⟨_, rfl⟩
    | some parts =>
      rw [hparts] at h
      obtain ⟨part, -, hpart⟩ := exists_of_mapM_eq_error h
      exact Call.parse_eq_error hpart

/-- Each call of an instruction string is read from one of its parts. -/
theorem isRead_of_parseInstructions {text : String} {rule : Option String} {calls : List Call}
    (h : parseInstructions text rule = .ok calls) {call : Call} (hcall : call ∈ calls) :
    ∃ letters body, call.IsRead letters body := by
  obtain ⟨parts, -, hparts⟩ := exists_parts_of_parseInstructions h
  obtain ⟨part, -, hpart⟩ := exists_mem_of_forall₂ hparts hcall
  obtain ⟨letters, body, -, hread⟩ := Call.isRead_of_parse hpart
  exact ⟨letters, body, hread⟩

/-! ## Rules -/

/-- The calls of a rule are read from its instruction string. -/
theorem LookupRule.parseInstructions_of_ofRecord {record : Value} {index : Int} {r : LookupRule}
    (h : LookupRule.ofRecord record index = .ok r) :
    ∃ label, parseInstructions r.instruction (some label) = .ok r.calls := by
  rw [LookupRule.ofRecord] at h
  obtain ⟨entries, -, h⟩ := except_bind_eq_ok_iff.1 h
  obtain ⟨header, -, h⟩ := except_bind_eq_ok_iff.1 h
  obtain ⟨constraints, -, h⟩ := except_bind_eq_ok_iff.1 h
  obtain ⟨calls, hcalls, h⟩ := except_bind_eq_ok_iff.1 h
  cases h
  exact ⟨_, hcalls⟩

end ChartStyle
