import ChartStyle.Proofs.Dangers
import ChartStyle.Proofs.Readings
import ChartStyle.Proofs.WholeNumbers

/-!
# Light descriptions in the renderer

The description of a light exists twice, computed from its attributes
(`LightData.lightDescription_eq`) and by the renderer (`LightData.eval_lightDescriptionExpr`). Both
write the same parts in the same order, and differ in the point before the period only: in the one
it follows what is not empty, in the other a character or a colour, whether or not these have an
abbreviation. So both agree on a light exactly when it has no period or these come to the same
(`LightData.description_agrees_iff`), unless a code is beyond the range of the doubles, which is a
fault in the one and may be anything in the other.
-/

set_option autoImplicit false

namespace ChartStyle

/-! ## Lights -/

/-- A figure of a light, of less than a million either way. -/
abbrev LightFigure := { n : Int // n.natAbs < 1000000 }

/-- The group of a light, which is not empty and has no blanks around it. -/
abbrev LightGroup := { text : String // text ≠ "" ∧ Text.trimmed text = text }

/-- What a light is described by. -/
structure LightData where
  character : Option Int
  group : Option LightGroup
  colour : Option Int
  period : Option LightFigure
  height : Option LightFigure
  range : Option LightFigure

/-- A look-up of attributes gives those of the light, whatever else it gives. -/
structure LightData.FoundBy (d : LightData) (find? : String → Option Value) : Prop where
  character : find? "LITCHR" = d.character.map .int
  group : find? "SIGGRP" = d.group.map fun text => .text text
  colour : find? "COLOUR" = d.colour.map .int
  period : find? "SIGPER" = d.period.map fun n => .int n
  height : find? "HEIGHT" = d.height.map fun n => .int n
  range : find? "VALNMR" = d.range.map fun n => .int n

namespace LightData

/-- The abbreviation of a code, empty when there is no code. -/
def coded (table : List (Int × String)) (code : Option Int) : String :=
  (code.map (abbreviation table)).getD ""

/-- A figure with its unit, nothing when there is no figure. -/
def measured (n : Option LightFigure) (unit : String) : String :=
  (n.map fun n => toString n.val ++ unit).getD ""

variable (d : LightData)

/-- What stands before the figures. -/
def opening : String :=
  coded lightCharacters d.character ++ groupText (d.group.map Subtype.val)
    ++ coded colourAbbreviations d.colour

/-- The description, with a point before the period or without. -/
def description (isPointed : Bool) : String :=
  d.opening ++ (if d.period.isSome && isPointed then "." else "") ++ measured d.period "s"
    ++ measured d.height "m" ++ measured d.range "M"

/-- The codes are not beyond the range of the doubles. -/
structure InRange : Prop where
  character : ∀ n ∈ d.character, (Double.ofInt? n).isSome = true
  colour : ∀ n ∈ d.colour, (Double.ofInt? n).isSome = true

variable {d}

/-- Where there is a period the point before it is seen. -/
theorem description_inj {isPointed isPointed' : Bool} :
    d.description isPointed = d.description isPointed' ↔
      (d.period.isSome = true → isPointed = isPointed') := by
  unfold description
  rw [String.append_left_inj, String.append_left_inj, String.append_left_inj,
    String.append_right_inj]
  -- What is left is a point or nothing on either side.
  cases d.period.isSome <;> cases isPointed <;> cases isPointed' <;> decide

end LightData

/-! ## Whole numbers as attributes -/

theorem Double.ofInt?_eq_some {n : Int} (hn : n.natAbs ≤ 2 * binade) :
    ofInt? n = some (ofInt n) := if_pos (truncate_ofInt hn).1

/-- A table of small codes does not tell a whole number from its double. -/
theorem abbreviation_truncate {table : List (Int × String)} {n : Int} {x : Double}
    (h : Double.ofInt? n = some x) (htable : ∀ entry ∈ table, entry.1.natAbs < 2 * Double.binade) :
    abbreviation table x.truncate = abbreviation table n := by
  unfold abbreviation
  induction table with
  | nil => rfl
  | cons entry table ih =>
    obtain ⟨code, text⟩ := entry
    obtain ⟨hcode, htable⟩ := List.forall_mem_cons.1 htable
    have hsame : (x.truncate == code) = (n == code) := by
      rw [Bool.eq_iff_iff, beq_iff_eq, beq_iff_eq, Double.truncate_eq_iff_of_ofInt? h hcode]
    rw [List.lookup_cons, List.lookup_cons, hsame]
    cases n == code with
    | true => rfl
    | false => exact ih htable

theorem Text.parts_of_notMem {separator : Char} {cs : List Char} (h : separator ∉ cs) :
    parts separator cs = [cs] := by
  induction cs with
  | nil => rfl
  | cons c cs ih =>
    rw [List.mem_cons, not_or] at h
    rw [parts, if_neg (Ne.symm h.1), ih h.2]
    rfl

namespace AttributeSet

variable {a : AttributeSet} {code : String} {n : Int}

theorem known?_of_absent (h : a.find? code = none) : a.known? code = none := by
  rw [known?_eq, h]
  rfl

theorem known?_of_int (h : a.find? code = some (.int n)) : a.known? code = some (.int n) := by
  rw [known?_eq, h]
  rfl

theorem getInt_of_int (h : a.find? code = some (.int n)) :
    a.getInt code .null =
      match Double.ofInt? n with
      | some x => pure (some x.truncate)
      | none => .fail (.data .intTooLarge) := by
  simp only [getInt_eq, known?_of_int h, Value.asWhole, Value.asReal]
  cases hx : Double.ofInt? n with
  | none => rfl
  | some x => simp only [Verdict.andThen, (Double.isWhole_of_ofInt? hx).1, if_true, heed]

/-- The text of a whole number is one item of a list. -/
theorem listItems_int (n : Int) : listItems (.int n) = [.text (toString n)] := by
  have hmem {c : Char} (h : c ∈ (toString n).toList) : c ≠ ',' ∧ Text.isBlank c = false := by
    cases mem_toString h with
    | inl hc =>
      subst hc
      decide
    | inr hc =>
      refine ⟨?_, Text.isBlank_of_isDecimal (Text.isDecimal_of_isDigit hc)⟩
      rintro rfl
      exact absurd hc (by decide)
  have hparts : Text.splitOn ',' (toString n) = [toString n] := by
    rw [Text.splitOn, Text.parts_of_notMem fun h => (hmem h).1 rfl]
    exact congrArg (· :: []) String.ofList_toList
  have hblank : Text.isBlankText (toString n) = false := by
    obtain ⟨c, cs, hlist⟩ := List.exists_cons_of_ne_nil (toList_toString_ne_nil n)
    rw [Text.isBlankText, hlist, List.all_cons, (hmem (hlist ▸ List.mem_cons_self)).2]
    rfl
  show (Text.splitOn ',' (toString n)).filterMap _ = _
  rw [hparts, List.filterMap_cons, hblank]
  rfl

theorem getInts_of_int (h : a.find? code = some (.int n)) :
    a.getInts code =
      match Double.ofInt? n with
      | some x => pure [x.truncate]
      | none => .fail (.data .infinityToInt) := by
  have hitem : itemToInt (.text (toString n)) = Value.wholePart (Double.ofInt n) := by
    simp only [itemToInt, Value.toDouble, readDouble?_toString_eq]
    rfl
  have hitems : (listItems (.int n)).mapM itemToInt =
      (Value.wholePart (Double.ofInt n)).map fun item => [item] := by
    rw [listItems_int, List.mapM_cons, hitem]
    cases Value.wholePart (Double.ofInt n) <;> rfl
  simp only [getInts, known?_of_int h, hitems]
  -- The text is read as the nearest double, which is an infinity when there is no finite one.
  obtain ⟨negative, hinfinite, hnone⟩ | ⟨negative, place, hfinite, hsome⟩ := Double.ofInt_cases n
  · rw [hinfinite, hnone]
    rfl
  · rw [hfinite, hsome]
    rfl

end AttributeSet

/-! ## From the attributes -/

namespace LightData

section Attributes

variable {a : AttributeSet} {d : LightData} {code : String}

theorem exists_getReal {n : Option LightFigure} (h : a.find? code = n.map fun n => .int n) :
    ∃ x, a.getReal code .null = pure x ∧ x.isSome = n.isSome ∧
      ∀ unit, suffixed x unit = measured n unit := by
  cases n with
  | none =>
    refine ⟨none, ?_, rfl, fun unit => rfl⟩
    rw [AttributeSet.getReal, AttributeSet.known?_of_absent h]
  | some n =>
    obtain ⟨n, hn⟩ := n
    have hle : n.natAbs ≤ 2 * Double.binade :=
      Nat.le_of_lt (Nat.lt_of_lt_of_le hn (by decide))
    obtain ⟨-, hwhole, htruncate⟩ := Double.truncate_ofInt hle
    refine ⟨_, AttributeSet.getReal_of_finite h (Double.ofInt?_eq_some hle) .null, rfl,
      fun unit => ?_⟩
    rw [suffixed, figure, if_pos hwhole, htruncate]
    rfl

theorem getText_group {group : Option LightGroup}
    (h : a.find? code = group.map fun text => .text text) :
    a.getText code = group.map Subtype.val := by
  rw [AttributeSet.getText, AttributeSet.known?_eq, h]
  cases group with
  | none => rfl
  | some text =>
    -- An empty text would count as no group at all.
    have hstated : Value.isKnown (.text text) = true := bne_iff_ne.2 text.property.1
    simp only [Option.map_some, Option.filter, hstated, if_true]
    rfl

section Codes

variable (table : List (Int × String))
  (htable : ∀ entry ∈ table, entry.1.natAbs < 2 * Double.binade) {n : Option Int}
  (h : a.find? code = n.map .int) (hrange : ∀ m ∈ n, (Double.ofInt? m).isSome = true)

include htable h hrange

theorem exists_getInt :
    ∃ read, a.getInt code .null = pure read ∧
      (read.map (abbreviation table)).getD "" = coded table n := by
  cases n with
  | none => exact ⟨none, Procedure.getInt_of_absent h .null, rfl⟩
  | some n =>
    obtain ⟨x, hx⟩ := Option.isSome_iff_exists.1 (hrange n rfl)
    refine ⟨some x.truncate, ?_, abbreviation_truncate hx htable⟩
    rw [AttributeSet.getInt_of_int h, hx]

theorem exists_getInts :
    ∃ read, a.getInts code = pure read ∧
      String.join (read.map (abbreviation table)) = coded table n := by
  cases n with
  | none =>
    refine ⟨[], ?_, rfl⟩
    rw [AttributeSet.getInts, AttributeSet.known?_of_absent h]
  | some n =>
    obtain ⟨x, hx⟩ := Option.isSome_iff_exists.1 (hrange n rfl)
    refine ⟨[x.truncate], ?_, ?_⟩
    · rw [AttributeSet.getInts_of_int h, hx]
    · rw [List.map_singleton, abbreviation_truncate hx htable]
      exact String.empty_append

end Codes

/-- Within the range of the doubles a point follows what is not empty. -/
theorem lightDescription_eq (h : d.FoundBy a.find?) (hrange : d.InRange) :
    lightDescription a = pure (d.description (d.opening != "")) := by
  obtain ⟨character, hcharacter, hkind⟩ :=
    exists_getInt lightCharacters (by decide) h.character hrange.character
  obtain ⟨colours, hcolours, hcolour⟩ :=
    exists_getInts colourAbbreviations (by decide) h.colour hrange.colour
  obtain ⟨period, hperiod, hsome, hseconds⟩ := exists_getReal h.period
  obtain ⟨height, hheight, -, hmetres⟩ := exists_getReal h.height
  obtain ⟨range, hreach, -, hmiles⟩ := exists_getReal h.range
  simp only [lightDescription, hcharacter, getText_group h.group, hcolours, hperiod,
    hheight, hreach, pure_bind, hkind, hcolour, hsome, hseconds, hmetres, hmiles]
  rfl

/-- A description that is computed at all is of codes within the range of the doubles. -/
theorem inRange_of_lightDescription (h : d.FoundBy a.find?) {text : String}
    (hok : (lightDescription a).outcome = .ok text) : d.InRange := by
  obtain ⟨character, hcharacter, hrest⟩ := Report.outcome_bind_eq_ok_iff.1 hok
  obtain ⟨colours, hcolours, -⟩ := Report.outcome_bind_eq_ok_iff.1 hrest
  have hfind {code : String} {c : Option Int} {n : Int} (hcode : a.find? code = c.map .int)
      (hn : n ∈ c) : a.find? code = some (.int n) := by
    rw [Option.mem_def] at hn
    subst hn
    exact hcode
  constructor
  · intro n hn
    rw [AttributeSet.getInt_of_int (hfind h.character hn)] at hcharacter
    cases hx : Double.ofInt? n with
    | some x => rfl
    | none =>
      rw [hx] at hcharacter
      cases hcharacter
  · intro n hn
    rw [AttributeSet.getInts_of_int (hfind h.colour hn)] at hcolours
    cases hx : Double.ofInt? n with
    | some x => rfl
    | none =>
      rw [hx] at hcolours
      cases hcolours

end Attributes

end LightData

/-! ## In the renderer -/

namespace Renderer

variable {r : Renderer} {f : TileFeature}

theorem evalTexts_cons {e : Expr} {es : List Expr} {s t : String}
    (he : r.eval f e = some (.text s)) (hes : r.evalTexts f es = some t) :
    r.evalTexts f (e :: es) = some (s ++ t) := by
  rw [evalTexts, he, hes]
  show some (r.text (.text s) ++ t) = _
  rw [r.text_text]

theorem eval_concat {es : List Expr} {s : String} (h : r.evalTexts f es = some s) :
    r.eval f (.concat es) = some (.text s) := by
  rw [eval, h]
  rfl

theorem eval_toText_get (r : Renderer) (f : TileFeature) (code : String) :
    r.eval f (.toText (.get code)) = some (.text (r.text ((f.find? code).getD .null))) := by
  rw [eval, eval]
  rfl

theorem eval_has (r : Renderer) (f : TileFeature) (code : String) :
    r.eval f (.has code) = some (.bool (f.find? code).isSome) := by
  rw [eval]

theorem eval_any_pair {e e' : Expr} {b b' : Bool} (he : r.eval f e = some (.bool b))
    (he' : r.eval f e' = some (.bool b')) :
    r.eval f (.any [e, e']) = some (.bool (b || b')) := by
  rw [eval, evalAny, he]
  cases b with
  | true => rfl
  | false =>
    show r.evalAny f [e'] = _
    rw [evalAny, he']
    cases b' with
    | true => rfl
    | false =>
      show r.evalAny f [] = _
      rw [evalAny]
      rfl

/-- A text under a condition, empty where the condition does not hold. -/
theorem eval_cases_text {condition e : Expr} {verdict : Bool} {s : String}
    (hcondition : r.eval f condition = some (.bool verdict))
    (he : verdict = true → r.eval f e = some (.text s)) :
    r.eval f (.cases [(condition, e)] (.text "")) =
      some (.text (if verdict then s else "")) := by
  rw [eval, evalCases, hcondition]
  cases verdict with
  | true => exact he rfl
  | false =>
    show r.evalCases f (r.eval f (.value (.text ""))) [] = _
    rw [evalCases, eval]
    rfl

/-- A selector that stands for a code, or for none, picks the abbreviation of the code. -/
theorem evalPick_codes {selector : Value} {code : Option Int} (labels : Int → Value)
    (table : List (Int × String))
    (h : ∀ entry ∈ table, selector.isAmong (labels entry.1) = true ↔ code = some entry.1) :
    r.evalPick f selector (some (.text "")) (table.map fun (code, text) =>
        (labels code, .text text)) = some (.text (LightData.coded table code)) := by
  induction table with
  | nil =>
    rw [List.map_nil, evalPick]
    cases code <;> rfl
  | cons entry table ih =>
    obtain ⟨label, text⟩ := entry
    obtain ⟨hentry, htable⟩ := List.forall_mem_cons.1 h
    rw [List.map_cons, evalPick, ih htable]
    -- The first entry decides when it has the code; the others are left to the induction.
    by_cases hcode : code = some label
    · rw [if_pos (hentry.2 hcode), hcode]
      show r.eval f (.value (.text text)) = _
      rw [eval, LightData.coded, Option.map_some, abbreviation, List.lookup_cons_self]
      rfl
    · rw [if_neg (mt hentry.1 hcode)]
      cases code with
      | none => rfl
      | some n =>
        have hne : (n == label) = false := beq_false_of_ne fun heq => hcode (congrArg some heq)
        simp only [LightData.coded, Option.map_some, abbreviation, List.lookup_cons, hne]

end Renderer

namespace LightData

variable {r : Renderer} {f : TileFeature} {d : LightData} {code : String}

section Figures

variable {n : Option LightFigure} (h : f.find? code = n.map fun n => .int n)

include h

theorem evalTexts_figure (hsome : n.isSome = true) (unit : String) :
    r.evalTexts f [.toText (.get code), .text unit] = some (measured n unit) := by
  obtain ⟨n, rfl⟩ := Option.isSome_iff_exists.1 hsome
  have hle : n.val.natAbs ≤ 0x20000000000000 := Nat.le_of_lt (Nat.lt_trans n.property (by decide))
  have htext : r.eval f (.toText (.get code)) = some (.text (toString n.val)) := by
    rw [r.eval_toText_get, h]
    exact congrArg (fun s => some (Value.text s)) (r.text_int n.val hle)
  have hunit : r.eval f (.text unit) = some (.text unit) := by
    show r.eval f (.value (.text unit)) = _
    rw [Renderer.eval]
  rw [Renderer.evalTexts_cons htext (Renderer.evalTexts_cons hunit (by rw [Renderer.evalTexts])),
    String.append_empty]
  rfl

theorem isSome_find? : (f.find? code).isSome = n.isSome := by
  rw [h, Option.isSome_map]

theorem eval_suffixedExpr (unit : String) :
    r.eval f (suffixedExpr code unit) = some (.text (measured n unit)) := by
  rw [suffixedExpr, Renderer.eval_cases_text (r.eval_has f code) fun hsome =>
    Renderer.eval_concat (evalTexts_figure h (isSome_find? h ▸ hsome) unit), isSome_find? h]
  cases n <;> rfl

end Figures

section Codes

variable {n : Option Int} (h : f.find? code = n.map .int)

include h

/-- A code that is missing counts as zero, which no entry of the table has. -/
theorem eval_numericCode (hrange : ∀ m ∈ n, (Double.ofInt? m).isSome = true)
    (table : List (Int × String))
    (htable : ∀ entry ∈ table, entry.1.natAbs < 2 * Double.binade ∧ entry.1 ≠ 0) :
    r.eval f (.pick (numericAttribute code (.int 0))
        (table.map fun (code, text) => (.int code, .text text)) (.text "")) =
      some (.text (coded table n)) := by
  obtain ⟨x, hx, hcode⟩ : ∃ x, ((f.find? code).getD (.int 0)).finite? = some x ∧
      ∀ entry ∈ table, x.isWhole = true ∧ x.truncate = entry.1 ↔ n = some entry.1 := by
    rw [h]
    cases n with
    -- Without the attribute the fallback is read, a zero.
    | none =>
      refine ⟨0, by decide +kernel, fun entry hentry => ?_⟩
      have hzero : (0 : Double).truncate = 0 := by decide +kernel
      rw [hzero]
      constructor
      · rintro ⟨-, heq⟩
        exact absurd heq.symm (htable entry hentry).2
      · intro heq
        cases heq
    | some n =>
      obtain ⟨x, hx⟩ := Option.isSome_iff_exists.1 (hrange n rfl)
      refine ⟨x, hx, fun entry hentry => ?_⟩
      rw [Double.truncate_eq_iff_of_ofInt? hx (htable entry hentry).1, Option.some_inj]
      exact and_iff_right (Double.isWhole_of_ofInt? hx).1
  rw [Renderer.eval, r.eval_numericAttribute hx]
  show r.evalPick f (.real x) (r.eval f (.value (.text ""))) _ = _
  rw [Renderer.eval]
  refine Renderer.evalPick_codes Value.int table fun entry hentry => ?_
  exact (Number.same_whole_iff (Value.isFinite_of_finite? hx) entry.1).trans (hcode entry hentry)

/-- A single code is labelled by its text alone, or in the brackets of a list. -/
theorem eval_textCode (htext : ∀ m, r.text (.int m) = toString m) (table : List (Int × String)) :
    r.eval f (.pick (.toText (.get code)) (table.map fun (code, text) =>
        (Value.ofTexts [s!"{code}", s!"[{code}]"], .text text)) (.text "")) =
      some (.text (coded table n)) := by
  rw [Renderer.eval, r.eval_toText_get, h]
  show r.evalPick f (.text _) (r.eval f (.value (.text ""))) _ = _
  rw [Renderer.eval]
  refine Renderer.evalPick_codes (fun code => Value.ofTexts [s!"{code}", s!"[{code}]"]) table
    fun entry _ => ?_
  have hopen : '[' ∈ (s!"[{entry.1}]").toList := by
    show '[' ∈ ("[" ++ toString entry.1 ++ "]").toList
    rw [String.toList_append, String.toList_append]
    exact List.mem_append_left _ (List.mem_append_left _ (by decide))
  have hamong (text : String) :
      (Value.text text).isAmong (Value.ofTexts [s!"{entry.1}", s!"[{entry.1}]"]) = true ↔
        text = toString entry.1 ∨ text = s!"[{entry.1}]" := by
    simp [Value.isAmong, Value.ofTexts, Value.equals]
  rw [hamong]
  cases n with
  | none =>
    show r.text .null = _ ∨ r.text .null = _ ↔ _
    rw [r.text_null]
    constructor
    · rintro (hempty | hempty)
      · exact absurd (congrArg String.toList hempty).symm (toList_toString_ne_nil entry.1)
      · rw [← hempty] at hopen
        cases hopen
    · intro heq
      cases heq
  | some n =>
    show r.text (.int n) = _ ∨ r.text (.int n) = _ ↔ _
    rw [htext, toString_inj, Option.some_inj]
    -- The text of a number holds no bracket.
    refine or_iff_left fun heq => ?_
    rw [← heq] at hopen
    cases mem_toString hopen with
    | inl hsign => exact absurd hsign (by decide)
    | inr hdigit => exact absurd hdigit (by decide)

end Codes

theorem eval_group {group : Option LightGroup}
    (h : f.find? code = group.map fun text => .text text) :
    r.eval f (.pick (.toText (.get code)) [(Value.ofTexts ["", "()", "(1)"], .text "")]
        (.toText (.get code))) = some (.text (groupText (group.map Subtype.val))) := by
  have hget := r.eval_toText_get f code
  rw [Renderer.eval, hget]
  show r.evalPick f (.text _) (r.eval f (.toText (.get code))) _ = _
  rw [hget, h, Renderer.evalPick, Renderer.evalPick]
  cases group with
  | none =>
    show (if (Value.text (r.text .null)).isAmong _ = true then r.eval f (.value (.text "")) else _) = _
    rw [r.text_null, Renderer.eval]
    exact if_pos (by decide)
  | some text =>
    obtain ⟨text, hne, htrimmed⟩ := text
    have hamong : (Value.text text).isAmong (Value.ofTexts ["", "()", "(1)"]) = true ↔
        text = "" ∨ text = "()" ∨ text = "(1)" := by
      simp [Value.isAmong, Value.ofTexts, Value.equals]
    show (if (Value.text (r.text (.text text))).isAmong _ = true then r.eval f (.value (.text ""))
      else some (Value.text (r.text (.text text)))) = some (Value.text (groupText (some text)))
    rw [r.text_text, Renderer.eval, groupText, htrimmed]
    simp only [hamong]
    split <;> rfl

/-- The renderer puts a point after a character or a colour. -/
theorem eval_lightDescriptionExpr (htext : ∀ m : Int, r.text (.int m) = toString m)
    (h : d.FoundBy f.find?) (hrange : d.InRange) :
    r.eval f lightDescriptionExpr =
      some (.text (d.description (d.character.isSome || d.colour.isSome))) := by
  have hpoint : r.eval f (.cases [(.any [.has "LITCHR", .has "COLOUR"], .text ".")] (.text "")) =
      some (.text (if d.character.isSome || d.colour.isSome then "." else "")) := by
    refine Renderer.eval_cases_text ?_ fun _ => ?_
    · rw [Renderer.eval_any_pair (r.eval_has f "LITCHR") (r.eval_has f "COLOUR"), h.character,
        h.colour, Option.isSome_map, Option.isSome_map]
    · show r.eval f (.value (.text ".")) = _
      rw [Renderer.eval]
  have hperiod : r.eval f (.cases [(.has "SIGPER", .concat [.cases [(.any [.has "LITCHR",
        .has "COLOUR"], .text ".")] (.text ""), .toText (.get "SIGPER"), .text "s"])] (.text "")) =
      some (.text ((if d.period.isSome && (d.character.isSome || d.colour.isSome) then "." else "")
        ++ measured d.period "s")) := by
    rw [Renderer.eval_cases_text (r.eval_has f "SIGPER") fun hsome =>
      Renderer.eval_concat (Renderer.evalTexts_cons hpoint
        (evalTexts_figure h.period (isSome_find? h.period ▸ hsome) "s")), isSome_find? h.period]
    cases d.period <;> rfl
  have hparts := Renderer.eval_concat <|
    Renderer.evalTexts_cons (eval_numericCode h.character hrange.character lightCharacters (by decide)) <|
    Renderer.evalTexts_cons (eval_group h.group) <|
    Renderer.evalTexts_cons (eval_textCode h.colour htext colourAbbreviations) <|
    Renderer.evalTexts_cons hperiod <|
    Renderer.evalTexts_cons (eval_suffixedExpr h.height "m") <|
    Renderer.evalTexts_cons (eval_suffixedExpr h.range "M") <|
    (by rw [Renderer.evalTexts] : r.evalTexts f [] = some "")
  rw [lightDescriptionExpr, hparts]
  simp only [description, opening, String.append_assoc, String.append_empty]

/-! ## Both -/

/-- Within the range of the doubles both descriptions differ in the point at most. -/
theorem outcomes_of_inRange (htext : ∀ m : Int, r.text (.int m) = toString m) (h : d.FoundBy f.find?)
    (hrange : d.InRange) (objectClass : String) :
    (lightDescription (f.attributeSet objectClass)).outcome =
        .ok (d.description (d.opening != "")) ∧
      r.eval f lightDescriptionExpr =
        some (.text (d.description (d.character.isSome || d.colour.isSome))) := by
  have hfound : d.FoundBy (f.attributeSet objectClass).find? := h
  refine ⟨?_, eval_lightDescriptionExpr htext h hrange⟩
  rw [lightDescription_eq hfound hrange]
  rfl

/-- The renderer writes for a feature what is computed from its attributes exactly when the codes are
within the range of the doubles and, where there is a period, a character or a colour is there just
when the opening is not empty. -/
theorem description_agrees_iff (r : Renderer) (htext : ∀ n : Int, r.text (.int n) = toString n)
    (f : TileFeature) (d : LightData) (h : d.FoundBy f.find?) (objectClass : String) :
    (∃ text, (lightDescription (f.attributeSet objectClass)).outcome = .ok text ∧
        r.eval f lightDescriptionExpr = some (.text text)) ↔
      d.InRange ∧ (d.period.isSome = true →
        (d.opening ≠ "" ↔ d.character.isSome = true ∨ d.colour.isSome = true)) := by
  have hpoints : (d.opening != "") = (d.character.isSome || d.colour.isSome) ↔
      (d.opening ≠ "" ↔ d.character.isSome = true ∨ d.colour.isSome = true) := by
    rw [Bool.eq_iff_iff, bne_iff_ne, Bool.or_eq_true]
  -- Both are one description, each with its own point.
  rw [← hpoints, ← description_inj]
  constructor
  · rintro ⟨text, hcomputed, hdrawn⟩
    have hfound : d.FoundBy (f.attributeSet objectClass).find? := h
    have hrange := inRange_of_lightDescription hfound hcomputed
    obtain ⟨hoks, htexts⟩ := outcomes_of_inRange htext h hrange objectClass
    rw [hoks] at hcomputed
    rw [htexts] at hdrawn
    cases hcomputed
    exact ⟨hrange, (Value.text.inj (Option.some.inj hdrawn)).symm⟩
  · rintro ⟨hrange, hagree⟩
    obtain ⟨hoks, htexts⟩ := outcomes_of_inRange htext h hrange objectClass
    exact ⟨_, hoks, hagree ▸ htexts⟩

/-- A light of two red flashes every ten seconds. -/
def redFlashes : LightData where
  character := some 2
  group := some ⟨"(2)", by decide, by decide⟩
  colour := some 3
  period := some ⟨10, by decide⟩
  height := some ⟨15, by decide⟩
  range := some ⟨12, by decide⟩

/-- A feature of a tile with the attributes of the light of two red flashes. -/
def redFlashesFeature : TileFeature :=
  ⟨.null, "Point", [("LITCHR", .int 2), ("SIGGRP", .text "(2)"), ("COLOUR", .int 3),
    ("SIGPER", .int 10), ("HEIGHT", .int 15), ("VALNMR", .int 12)]⟩

theorem description_agrees_iff_redFlashes :
    ∃ text, (lightDescription (redFlashesFeature.attributeSet "LIGHTS")).outcome = .ok text ∧
      Renderer.standard.eval redFlashesFeature lightDescriptionExpr = some (.text text) := by
  have hfound : redFlashes.FoundBy redFlashesFeature.find? := ⟨rfl, rfl, rfl, rfl, rfl, rfl⟩
  have hrange : redFlashes.InRange := by
    constructor
    all_goals
      rintro n ⟨⟩
      decide +kernel
  exact (description_agrees_iff .standard (fun _ => rfl) redFlashesFeature redFlashes hfound
    "LIGHTS").2 ⟨hrange, fun _ => by decide⟩

/-- A light of which nothing is known but its group and its period. -/
def groupedLight : LightData :=
  ⟨none, some ⟨"(2)", by decide, by decide⟩, none, some ⟨10, by decide⟩, none, none⟩

def groupedFeature : TileFeature := ⟨.null, "Point", [("SIGGRP", .text "(2)"), ("SIGPER", .int 10)]⟩

/-- A light of which nothing is known but a character without an abbreviation, and its period. -/
def unnamedLight : LightData := ⟨some 21, none, none, some ⟨10, by decide⟩, none, none⟩

def unnamedFeature : TileFeature := ⟨.null, "Point", [("LITCHR", .int 21), ("SIGPER", .int 10)]⟩

/-- Between a group and the period the renderer leaves out the point, and behind a character without
an abbreviation it starts with one. -/
theorem description_disagrees :
    (lightDescription (groupedFeature.attributeSet "LIGHTS")).outcome = .ok "(2).10s" ∧
      Renderer.standard.eval groupedFeature lightDescriptionExpr = some (.text "(2)10s") ∧
      (lightDescription (unnamedFeature.attributeSet "LIGHTS")).outcome = .ok "10s" ∧
      Renderer.standard.eval unnamedFeature lightDescriptionExpr = some (.text ".10s") := by
  have hgrouped : groupedLight.FoundBy groupedFeature.find? := ⟨rfl, rfl, rfl, rfl, rfl, rfl⟩
  have hunnamed : unnamedLight.FoundBy unnamedFeature.find? := ⟨rfl, rfl, rfl, rfl, rfl, rfl⟩
  have hrange : groupedLight.InRange := by
    constructor
    all_goals
      rintro n ⟨⟩
  have hrange' : unnamedLight.InRange := by
    constructor
    · rintro n ⟨⟩
      decide +kernel
    · rintro n ⟨⟩
  obtain ⟨hok, htext⟩ := outcomes_of_inRange (r := .standard) (fun _ => rfl) hgrouped hrange "LIGHTS"
  obtain ⟨hok', htext'⟩ := outcomes_of_inRange (r := .standard) (fun _ => rfl) hunnamed hrange' "LIGHTS"
  exact ⟨hok, htext, hok', htext'⟩

end LightData

end ChartStyle
