import ChartStyle.Proofs.FilledTemplates
import ChartStyle.Proofs.ReadCalls
import ChartStyle.Proofs.TemplateFields

/-!
# Formatted texts

What the format of a text gives, place by place. The fields of the format take the codes in turn,
and each place gives its part of the text (`Slot.Gives`): a literal itself, a field without a code
nothing, a field with a known code the value as the field writes it, and any other field an
expression that reads this one code. Nothing is given just when a field for a number has a known
value that is none (`format_structure`).
-/

set_option autoImplicit false

namespace ChartStyle

/-- The value as a text; the items of a list are joined by commas. -/
def Value.joined : Value → String
  | .list items => ",".intercalate (items.map plain)
  | v => v.plain

/-- The value in a field: as text, cut to a whole number, or with decimal places. There is none where
the field is for a number and the value is not a finite one. -/
def Text.Field.write? (f : Text.Field) (v : Value) : Option String :=
  match f.conversion, v.asReal with
  | .text, _ => some v.joined
  | .whole, .usable x => some (toString x.truncate)
  | .decimal, .usable x => some (x.toFixed (f.precision.getD Template.defaultPlaces))
  | _, _ => none

/-- Only a whole number lies beyond the range of the doubles. -/
theorem Value.asReal_ne_beyond {v : Value} (h : ∀ n, v = .int n → (Double.ofInt? n).isSome = true)
    (fault : DataFault) : v.asReal ≠ .beyond fault := by
  intro hfault
  cases v with
  | int n =>
    obtain ⟨x, hx⟩ := Option.isSome_iff_exists.1 (h n rfl)
    simp only [asReal, hx] at hfault
    cases hfault
  | null | bool b | real x | text s | list items | map entries | perFeature =>
    simp only [asReal] at hfault
    split at hfault
    · split at hfault <;> cases hfault
    · cases hfault

/-- An expression that reads one attribute and nothing else. -/
inductive Expr.ReadsOnly (code : String) : Expr → Prop where
  | text : ReadsOnly code (.toText (.get code))
  | number (places : Nat) : ReadsOnly code (.numberFormat (.toNumber [.get code]) places)

namespace Template

/-! ## Places -/

/-- A piece of a template with the code that its field takes. -/
inductive Slot where
  | literal (s : List Char)
  /-- A field for which no code is left. -/
  | unbound (f : Text.Field)
  | bound (f : Text.Field) (code : String)

namespace Slot

/-- The piece of the template. -/
def piece : Slot → Text.Piece
  | .literal s => .literal s
  | .unbound f => .field f
  | .bound f _ => .field f

/-- The field with its code. -/
def bound? : Slot → Option (Text.Field × String)
  | .bound f code => some (f, code)
  | _ => none

/-- What is written for a slot: at most one expression. -/
inductive Gives (a : AttributeSet) : Slot → List Expr → Prop where
  | literal (s : List Char) : Gives a (.literal s) [.text (String.ofList s)]
  | unbound (f : Text.Field) : Gives a (.unbound f) []
  | known {f : Text.Field} {code : String} {v : Value} {text : String}
    (hcode : a.known? code = some v) (htext : f.write? v = some text) :
    Gives a (.bound f code) [.text text]
  | deferred {f : Text.Field} {code : String} (hcode : a.known? code = none) :
    Gives a (.bound f code) [deferred f code]

/-- The field is for a number, and the known value of its code is not a finite one. -/
def IsUnwritable (a : AttributeSet) : Slot → Prop
  | .bound f code => f.conversion ≠ .text ∧
      ∃ v, a.known? code = some v ∧ ∀ x, v.asReal ≠ .usable x
  | _ => False

end Slot

/-- The slots of a template whose fields take the codes in turn. -/
def slots : List Text.Piece → List String → List Slot
  | [], _ => []
  | .literal s :: pieces, codes => .literal s :: slots pieces codes
  | .field f :: pieces, [] => .unbound f :: slots pieces []
  | .field f :: pieces, code :: codes => .bound f code :: slots pieces codes

theorem slots_pieces (pieces : List Text.Piece) (codes : List String) :
    (slots pieces codes).map Slot.piece = pieces := by
  induction pieces generalizing codes with
  | nil => rfl
  | cons piece pieces ih =>
    cases piece with
    | literal s => exact congrArg (_ :: ·) (ih codes)
    | field f =>
      cases codes with
      | nil => exact congrArg (_ :: ·) (ih [])
      | cons code codes => exact congrArg (_ :: ·) (ih codes)

/-- The fields take the codes in turn. -/
theorem slots_bound (pieces : List Text.Piece) (codes : List String) :
    (slots pieces codes).filterMap Slot.bound? = (fields pieces).zip codes := by
  induction pieces generalizing codes with
  | nil => rfl
  | cons piece pieces ih =>
    cases piece with
    | literal s => exact ih codes
    | field f =>
      cases codes with
      | nil => exact (ih []).trans List.zip_nil_right
      | cons code codes => exact congrArg (_ :: ·) (ih codes)

/-! ## One field -/

variable {a : AttributeSet} {f : Text.Field} {code : String}

theorem deferred_readsOnly (f : Text.Field) (code : String) :
    Expr.ReadsOnly code (deferred f code) := by
  unfold deferred
  split
  · exact .number _
  · exact .text

theorem fill_of_unknown (h : a.known? code = none) : fill f code a = pure (some (deferred f code)) := by
  rw [fill, AttributeSet.isKnown_eq, h]
  rfl

theorem written_eq {x : Double} {v : Value} (hf : f.conversion ≠ .text) (hx : v.asReal = .usable x)
    (hfits : f.conversion = .decimal → f.precision.getD defaultPlaces ≤ maxPlaces) :
    ∃ text, written f x = .ok text ∧ f.write? v = some text := by
  unfold written Text.Field.write?
  rw [hx]
  cases hconversion : f.conversion with
  | text => exact absurd hconversion hf
  | whole => exact ⟨_, rfl, rfl⟩
  | decimal =>
    refine ⟨_, ?_, rfl⟩
    exact if_neg (Nat.not_lt.2 (hfits hconversion))

/-- A known value is written as its field says, or is none for it. -/
theorem fill_of_known {v : Value} (h : a.known? code = some v)
    (hrange : ∀ fault, v.asReal ≠ .beyond fault)
    (hfits : f.conversion = .decimal → f.precision.getD defaultPlaces ≤ maxPlaces) :
    (Slot.IsUnwritable a (.bound f code) ∧ (fill f code a).outcome = .ok none) ∨
      ∃ text, f.write? v = some text ∧ (fill f code a).outcome = .ok (some (.text text)) := by
  have hknown : a.isKnown code = true := by
    rw [AttributeSet.isKnown_eq, h]
    rfl
  cases hconversion : f.conversion with
  | text =>
    right
    rw [fill, if_pos hknown, hconversion]
    refine ⟨(a.getText code).getD "", ?_, rfl⟩
    rw [AttributeSet.getText, h, Text.Field.write?, hconversion]
    cases v <;> rfl
  | whole | decimal =>
    have hf : f.conversion ≠ .text := by
      rw [hconversion]
      decide
    have hread : a.getReal code .null = a.heed code v .null v.asReal := by
      rw [AttributeSet.getReal_eq, h]
    rw [fill, if_pos hknown, hconversion]
    dsimp only
    rw [hread]
    cases hv : v.asReal with
    | usable x =>
      obtain ⟨text, hwritten, htext⟩ := written_eq hf hv hfits
      refine .inr ⟨text, htext, ?_⟩
      show (liftM (written f x) >>= _ : Report (Option Expr)).outcome = _
      rw [hwritten]
      rfl
    | unusable =>
      refine .inl ⟨⟨hf, v, h, ?_⟩, rfl⟩
      intro x hx
      cases hv.symm.trans hx
    | beyond fault => exact absurd hv (hrange fault)

/-! ## All pieces -/

theorem Slot.Gives.not_isUnwritable {slot : Slot} {group : List Expr} (h : slot.Gives a group) :
    ¬ slot.IsUnwritable a := by
  rintro hslot
  cases h with
  | literal | unbound => exact hslot
  | deferred hcode =>
    obtain ⟨-, v, hv, -⟩ := hslot
    cases hcode.symm.trans hv
  | @known f code v text hcode htext =>
    obtain ⟨hf, v', hv', hnone⟩ := hslot
    cases hcode.symm.trans hv'
    rw [Text.Field.write?] at htext
    split at htext
    · next htextual => exact hf htextual
    · next hx => exact hnone _ hx
    · next hx => exact hnone _ hx
    · cases htext

/-- Filling slots gives what they give in turn, or nothing where one of them cannot be written. -/
def Fills (a : AttributeSet) (slots : List Slot) (x : Report (Option (List Expr))) : Prop :=
  ((∃ slot ∈ slots, slot.IsUnwritable a) ∧ x.outcome = .ok none) ∨
    ∃ groups, List.Forall₂ (Slot.Gives a) slots groups ∧ x.outcome = .ok (some groups.flatten)

theorem Fills.cons {slot : Slot} {group : List Expr} {others : List Slot}
    {x : Report (Option (List Expr))} (hslot : slot.Gives a group) (h : Fills a others x) :
    Fills a (slot :: others) (x >>= fun es => pure (es.map (group ++ ·))) := by
  rcases h with ⟨⟨other, hother, hunwritable⟩, hx⟩ | ⟨groups, hgroups, hx⟩
  · refine .inl ⟨⟨other, List.mem_cons_of_mem _ hother, hunwritable⟩, ?_⟩
    exact Report.outcome_bind_eq_ok_iff.2 ⟨none, hx, rfl⟩
  · refine .inr ⟨group :: groups, .cons hslot hgroups, ?_⟩
    exact Report.outcome_bind_eq_ok_iff.2 ⟨_, hx, rfl⟩

/-- A template is filled slot by slot. -/
theorem fillAll_fills (hrange : ∀ code v, a.known? code = some v → ∀ fault, v.asReal ≠ .beyond fault)
    {pieces : List Text.Piece} {codes : List String} (hfits : Fits pieces codes) :
    Fills a (slots pieces codes) (fillAll a pieces codes) := by
  induction pieces generalizing codes with
  | nil => exact .inr ⟨[], .nil, rfl⟩
  | cons piece pieces ih =>
    cases piece with
    | literal s => exact (ih hfits).cons (.literal s)
    | field f =>
      cases codes with
      | nil =>
        -- Without codes nothing is bound, and the field gives nothing.
        have hnone : Fits pieces [] := fun entry hentry => by simp [filled] at hentry
        rcases ih hnone with ⟨⟨slot, hslot, hunwritable⟩, hx⟩ | ⟨groups, hgroups, hx⟩
        · exact .inl ⟨⟨slot, List.mem_cons_of_mem _ hslot, hunwritable⟩, hx⟩
        · exact .inr ⟨[] :: groups, .cons (.unbound f) hgroups, hx⟩
      | cons code codes =>
        obtain ⟨hfirst, hrest⟩ := List.forall_mem_cons.1 hfits
        have hcons {e : Expr} (he : (fill f code a).outcome = .ok (some e))
            (hslot : (Slot.bound f code).Gives a [e]) :
            Fills a (slots (.field f :: pieces) (code :: codes))
              (fillAll a (.field f :: pieces) (code :: codes)) := by
          rw [fillAll, Report.bind_of_ok he]
          exact (ih hrest).cons hslot
        cases hcode : a.known? code with
        | none => exact hcons (by rw [fill_of_unknown hcode]; rfl) (.deferred hcode)
        | some v =>
          -- One value that cannot be written leaves the whole template without a text.
          rcases fill_of_known hcode (hrange code v hcode) hfirst with
            ⟨hunwritable, hfill⟩ | ⟨text, htext, hfill⟩
          · refine .inl ⟨⟨_, List.mem_cons_self, hunwritable⟩, ?_⟩
            exact Report.outcome_bind_eq_ok_iff.2 ⟨none, hfill, rfl⟩
          · exact hcons hfill (.known hcode htext)

/-! ## The text of a format -/

/-- Texts are joined to one, and with any other expression among them they are left apart. -/
theorem join_cases (es : List Expr) :
    (∃ texts, es = texts.map .text ∧ join es = .text (String.join texts)) ∨
      ((∃ e ∈ es, ∀ text, e ≠ .text text) ∧ join es = .concat es) := by
  unfold join
  cases h : es.mapM text? with
  | some texts => exact .inl ⟨texts, mapM_text?_eq_some_iff.1 h, rfl⟩
  | none =>
    refine .inr ⟨?_, rfl⟩
    by_contra! hall
    choose! text htext using hall
    have htexts : es = (es.map text).map .text := by
      rw [List.map_map]
      exact ((List.map_congr_left fun e he => (htext e he).symm).trans (List.map_id es)).symm
    cases h.symm.trans (mapM_text?_eq_some_iff.2 htexts)

/-- What slots give are texts just when each field has a known code. -/
theorem texts_of_gives {slots : List Slot} {groups : List (List Expr)}
    (h : List.Forall₂ (Slot.Gives a) slots groups) :
    (∀ e ∈ groups.flatten, ∃ text, e = .text text) ↔
      ∀ f code, .bound f code ∈ slots → (a.known? code).isSome = true := by
  induction h with
  | nil => simp
  | @cons slot group slots groups hslot _ ih =>
    rw [List.flatten_cons, List.forall_mem_append, ih]
    -- What is left to tell is the slot in front.
    have hfirst : (∀ e ∈ group, ∃ text, e = .text text) ↔
        ∀ f code, .bound f code = slot → (a.known? code).isSome = true := by
      cases hslot with
      | literal s => simp [Expr.text]
      | unbound f => simp
      | known hcode => simp [Expr.text, hcode]
      | @deferred f code hcode =>
        refine iff_of_false (fun htext => ?_) fun hknown => ?_
        · obtain ⟨text, htext⟩ := htext _ List.mem_cons_self
          have hreads := deferred_readsOnly f code
          rw [htext] at hreads
          cases hreads
        · have hsome := hknown f code rfl
          rw [hcode] at hsome
          cases hsome
    rw [hfirst]
    simp only [List.mem_cons, or_imp, forall_and]

theorem not_unwritable_of_gives {slots : List Slot} {groups : List (List Expr)}
    (h : List.Forall₂ (Slot.Gives a) slots groups) : ¬ ∃ slot ∈ slots, slot.IsUnwritable a := by
  rintro ⟨slot, hslot, hunwritable⟩
  obtain ⟨group, -, hgives⟩ := exists_mem_of_forall₂ h.flip hslot
  exact hgives.not_isUnwritable hunwritable

theorem format_eq_none_iff {template : String} {codes : List String} :
    (format template codes a).outcome = .ok none ↔
      (fillAll a (Text.pieces template.toList) codes).outcome = .ok none := by
  unfold format
  rw [Report.outcome_bind_eq_ok_iff]
  constructor
  · rintro ⟨es, hes, h⟩
    cases es with
    | none => exact hes
    | some es => cases h
  · exact fun h => ⟨none, h, rfl⟩

/-- The text that a template gives, place by place. Its pieces are the fields that begin leftmost and
what stands between them, and the fields take the codes in turn. Nothing is given just when a field
for a number has a known value that is no finite one. Otherwise each slot gives its part in order,
and the parts are one text just when every field with a code has a known value. -/
theorem format_structure {template : String} {codes : List String}
    (hfits : Fits (Text.pieces template.toList) codes)
    (hrange : ∀ code n, a.find? code = some (.int n) → (Double.ofInt? n).isSome = true) :
    ∃ slots : List Slot,
      (∀ ps, Text.Cut template.toList ps ↔ ps = slots.map Slot.piece) ∧
      slots.filterMap Slot.bound? = (fields (slots.map Slot.piece)).zip codes ∧
      ((format template codes a).outcome = .ok none ↔ ∃ slot ∈ slots, slot.IsUnwritable a) ∧
      ((¬ ∃ slot ∈ slots, slot.IsUnwritable a) → ∃ groups e,
        List.Forall₂ (Slot.Gives a) slots groups ∧
        (format template codes a).outcome = .ok (some e) ∧
        ((∃ text, e = .text text) ↔
          ∀ f code, .bound f code ∈ slots → (a.known? code).isSome = true) ∧
        ((∃ texts, groups.flatten = texts.map .text ∧ e = .text (String.join texts)) ∨
          e = .concat groups.flatten)) ∧
      ∀ f code, Expr.ReadsOnly code (deferred f code) := by
  have hrange' : ∀ code v, a.known? code = some v → ∀ fault, v.asReal ≠ .beyond fault := by
    intro code v hv
    refine Value.asReal_ne_beyond fun n hn => hrange code n ?_
    rw [AttributeSet.find?_of_known? hv, hn]
  have hfills := fillAll_fills hrange' hfits
  refine ⟨slots (Text.pieces template.toList) codes, ?_, ?_, ?_, ?_, deferred_readsOnly⟩
  · intro ps
    rw [slots_pieces]
    exact Text.cut_iff
  · rw [slots_pieces]
    exact slots_bound _ codes
  · rw [format_eq_none_iff]
    rcases hfills with ⟨hunwritable, hnone⟩ | ⟨groups, hgroups, hsome⟩
    · exact iff_of_true hnone hunwritable
    · refine iff_of_false (fun hnone => ?_) (not_unwritable_of_gives hgroups)
      cases hsome.symm.trans hnone
  · intro hwritable
    obtain ⟨hunwritable, -⟩ | ⟨groups, hgroups, hsome⟩ := hfills
    · exact absurd hunwritable hwritable
    · refine ⟨groups, join groups.flatten, hgroups, ?_, ?_, ?_⟩
      · exact Report.outcome_bind_eq_ok_iff.2 ⟨_, hsome, rfl⟩
      · rw [← texts_of_gives hgroups]
        obtain ⟨texts, htexts, hjoin⟩ | ⟨⟨e, he, hother⟩, hjoin⟩ := join_cases groups.flatten
        · refine iff_of_true ⟨_, hjoin⟩ fun e he => ?_
          rw [htexts] at he
          obtain ⟨text, -, rfl⟩ := List.mem_map.1 he
          exact ⟨text, rfl⟩
        · refine iff_of_false (fun htext => ?_) fun htexts => ?_
          · obtain ⟨text, htext⟩ := htext
            cases hjoin.symm.trans htext
          · obtain ⟨text, htext⟩ := htexts e he
            exact hother text htext
      · obtain htexts | ⟨-, hjoin⟩ := join_cases groups.flatten
        · exact .inl htexts
        · exact .inr hjoin

/-- A depth of which the renderer knows the name. -/
def namedDepth : AttributeSet := ⟨"SOUNDG", [("OBJNAM", .perFeature), ("VALSOU", .text "4.25")]⟩

/-- The name is left to the renderer, the depth is written, and the last field has no code. -/
theorem format_structure_namedDepth : ∃ slots groups,
    (∀ ps, Text.Cut "%s: %4.1lf m%d".toList ps ↔ ps = slots.map Slot.piece) ∧
      slots.filterMap Slot.bound? = [(⟨none, .text⟩, "OBJNAM"), (⟨some 1, .decimal⟩, "VALSOU")] ∧
      List.Forall₂ (Slot.Gives namedDepth) slots groups ∧
      (format "%s: %4.1lf m%d" ["OBJNAM", "VALSOU"] namedDepth).outcome =
        .ok (some (.concat groups.flatten)) := by
  have hpieces : Text.pieces "%s: %4.1lf m%d".toList =
      [.field ⟨none, .text⟩, .literal [':', ' '], .field ⟨some 1, .decimal⟩, .literal [' ', 'm'],
        .field ⟨none, .whole⟩] := by decide +kernel
  have hfits : Fits (Text.pieces "%s: %4.1lf m%d".toList) ["OBJNAM", "VALSOU"] := by
    rw [hpieces]
    simp [Fits, filled, fields, maxPlaces]
  have hrange : ∀ code n, namedDepth.find? code = some (.int n) →
      (Double.ofInt? n).isSome = true := by
    intro code n h
    have hmem := mem_of_lookup_eq_some h
    simp [namedDepth] at hmem
  obtain ⟨slots, hcut, hbound, -, hsome, -⟩ := format_structure hfits hrange
  have hslots : slots.map Slot.piece = _ := ((hcut _).1 (Text.cut_iff.2 rfl)).symm.trans hpieces
  rw [hslots] at hbound
  have hname : namedDepth.known? "OBJNAM" = none := rfl
  have hdepth : namedDepth.known? "VALSOU" = some (.text "4.25") := rfl
  have hwritable : ¬ ∃ slot ∈ slots, slot.IsUnwritable namedDepth := by
    rintro ⟨slot, hslot, hunwritable⟩
    cases slot with
    | literal | unbound => exact hunwritable
    | bound f code =>
      have hmem : (f, code) ∈ slots.filterMap Slot.bound? := List.mem_filterMap.2 ⟨_, hslot, rfl⟩
      rw [hbound] at hmem
      obtain ⟨hf, v, hv, hnone⟩ := hunwritable
      rcases List.mem_pair.1 hmem with heq | heq
      · cases heq
        exact hf rfl
      · cases heq
        cases hdepth.symm.trans hv
        have hread : Text.readDouble? "4.25" = some (.ofDecimal false 425 (-2)) := by
          decide +kernel
        have hfinite : (Double.ofDecimal false 425 (-2)).isFinite = true := by decide +kernel
        exact hnone (.ofDecimal false 425 (-2)) (by simp [Value.asReal, Value.toDouble, hread, hfinite])
  obtain ⟨groups, e, hgroups, he, hplain, hparts⟩ := hsome hwritable
  refine ⟨slots, groups, hcut, hbound, hgroups, ?_⟩
  rcases hparts with ⟨texts, -, htext⟩ | hconcat
  · have hmem : (⟨none, .text⟩, "OBJNAM") ∈ slots.filterMap Slot.bound? := by
      rw [hbound]
      exact List.mem_cons_self
    obtain ⟨slot, hslot, hname'⟩ := List.mem_filterMap.1 hmem
    cases slot with
    | literal | unbound => cases hname'
    | bound f code =>
      cases hname'
      have hsome := hplain.1 ⟨_, htext⟩ _ _ hslot
      rw [hname] at hsome
      cases hsome
  · rw [he, hconcat]

end Template

end ChartStyle
