import ChartStyle.Bundled.Presentation
import ChartStyle.Proofs.CanonicalOrder
import ChartStyle.Proofs.FilledTemplates
import ChartStyle.Proofs.NameFaults
import ChartStyle.Proofs.ProcedureReadings

/-!
# What the check of calls leaves open

The calls of a presentation were checked against its palette. For attributes that can be read a
checked call can still fail to be drawn: the check looks at literal colours, widths, line styles and
transparencies only. `Call.IsDrawable` lists what it does not look at, and
`Presentation.checkedCall_draws_iff` says that there is nothing else.
-/

set_option autoImplicit false

namespace ChartStyle

/-! ## Attributes that can be read -/

/-- The typed readers read every attribute. -/
structure AttributeSet.IsReadable (a : AttributeSet) : Prop where
  real : ∀ code standIn, IsOk (a.getReal code standIn).outcome
  whole : ∀ code standIn, IsOk (a.getInt code standIn).outcome
  items : ∀ code, IsOk (a.getInts code).outcome

namespace AttributeSet

variable {a : AttributeSet}

theorem IsReadable.not_exceeds (h : a.IsReadable) (r : Reading) : ¬ a.Exceeds r := by
  rintro ⟨v, fault, hv, hverdict⟩
  obtain ⟨code, kind⟩ := r
  have hbeyond {α : Type} {standIn : Value} {verdict : Verdict α}
      (hok : IsOk (a.heed code v standIn verdict).outcome) :
      verdict.andThen (fun _ => .usable ()) ≠ .beyond fault := by
    intro heq
    cases verdict with
    | usable x => cases heq
    | unusable => cases heq
    | beyond fault => exact IsOk.not_error _ hok
  have hv : a.known? code = some v := hv
  cases kind with
  | real standIn =>
    have hok := h.real code .null
    rw [getReal_eq, hv] at hok
    exact hbeyond hok hverdict
  | whole =>
    have hok := h.whole code .null
    rw [getInt_eq, hv] at hok
    exact hbeyond hok hverdict
  | items =>
    have hok := h.items code
    rw [getInts_eq, hv] at hok
    obtain ⟨items, hitems, -⟩ := Report.outcome_bind_eq_ok_iff.1 hok.choose_spec
    exact hbeyond ⟨items, hitems⟩ hverdict

/-- Attributes can be read whose known values are zeros. -/
theorem isReadable_of_zeros (h : ∀ code v, a.known? code = some v → v = .int 0) :
    a.IsReadable := by
  obtain ⟨items, hitems⟩ : ∃ items, (Value.int 0).asItems = .usable items :=
    ⟨_, by with_unfolding_all rfl⟩
  have hreal (code : String) (standIn : Value) : IsOk (a.getReal code standIn).outcome := by
    rw [getReal_eq]
    cases hv : a.known? code with
    | none => exact .ok _
    | some v =>
      obtain rfl := h code v hv
      exact .ok _
  refine ⟨hreal, fun code standIn => ?_, fun code => ?_⟩
  · refine .report_bind (hreal code .null) fun x _ => ?_
    cases x with
    | none => exact .ok _
    | some x =>
      dsimp only
      split <;> exact .ok _
  · rw [getInts_eq]
    cases hv : a.known? code with
    | none => exact .ok _
    | some v =>
      obtain rfl := h code v hv
      dsimp only
      rw [hitems]
      exact .ok _

/-- No attributes. -/
def bare : AttributeSet := ⟨"", []⟩

theorem isReadable_bare : bare.IsReadable :=
  isReadable_of_zeros fun code v h => by cases h

/-- Attributes that are all zero. -/
def zeros (codes : List String) : AttributeSet := ⟨"", codes.map fun code => (code, .int 0)⟩

theorem known?_zeros (codes : List String) (code : String) :
    (zeros codes).known? code = if code ∈ codes then some (.int 0) else none := by
  have hfind : (zeros codes).find? code = if code ∈ codes then some (.int 0) else none := by
    show (codes.map fun code => (code, Value.int 0)).lookup code = _
    induction codes with
    | nil => rfl
    | cons first codes ih =>
      rw [List.map_cons, List.lookup_cons, ih]
      cases h : code == first with
      | true => simp [eq_of_beq h]
      | false => simp [ne_of_beq_false h]
  rw [known?_eq, hfind]
  split <;> rfl

theorem isReadable_zeros (codes : List String) : (zeros codes).IsReadable := by
  refine isReadable_of_zeros fun code v h => ?_
  rw [known?_zeros] at h
  split at h
  · cases h
    rfl
  · cases h

/-- A depth that only the renderer knows. -/
def deferred : AttributeSet := ⟨"", [("DRVAL1", .perFeature)]⟩

theorem isReadable_deferred : deferred.IsReadable := by
  refine isReadable_of_zeros fun code v h => ?_
  rw [known?_eq] at h
  obtain ⟨hfind, hv⟩ := Option.filter_eq_some_iff.1 h
  have hv' : v = .perFeature := by
    have hlookup : List.lookup code [("DRVAL1", Value.perFeature)] = some v := hfind
    rw [List.lookup_cons] at hlookup
    split at hlookup
    · cases hlookup
      rfl
    · cases hlookup
  rw [hv'] at hv
  cases hv

end AttributeSet

/-! ## Checked calls -/

theorem forM_eq_ok_iff {α : Type} {f : α → Except Fault Unit} {xs : List α} :
    xs.forM f = .ok () ↔ ∀ x ∈ xs, f x = .ok () := by
  induction xs with
  | nil => exact iff_of_true rfl fun x hx => absurd hx List.not_mem_nil
  | cons x xs ih =>
    rw [List.forall_mem_cons, ← ih]
    show f x >>= (fun _ => xs.forM f) = .ok () ↔ _
    rw [except_bind_eq_ok_iff]
    exact ⟨fun ⟨⟨⟩, hx, hxs⟩ => ⟨hx, hxs⟩, fun ⟨hx, hxs⟩ => ⟨(), hx, hxs⟩⟩

/-- Every call of a presentation was checked. -/
theorem Presentation.check_of_mem (p : Presentation) {rule : LookupRule}
    (hrule : rule ∈ p.table.rules) {call : Call} (hcall : call ∈ rule.calls) :
    call.check p.palette rule.name = .ok () :=
  forM_eq_ok_iff.1 (forM_eq_ok_iff.1 p.checked rule hrule) call hcall

/-- The calls of every rule were read from its instruction string. -/
def LookupTable.IsRead (t : LookupTable) : Prop :=
  ∀ rule ∈ t.rules, ∃ label, parseInstructions rule.instruction label = .ok rule.calls

theorem LookupTable.isRead_of_ofRecords {records : List Value} {t : LookupTable}
    (h : ofRecords records = .ok t) : t.IsRead := by
  obtain ⟨rules, hread, rfl⟩ := ofRecords_eq_ok_iff.1 h
  intro rule hrule
  obtain ⟨record, index, hrecord⟩ :=
    exists_ofRecord_of_readRecords hread rule (mem_rules_ofRules.1 hrule)
  obtain ⟨label, hcalls⟩ := LookupRule.parseInstructions_of_ofRecord hrecord
  exact ⟨some label, hcalls⟩

/-- What was read is complete. -/
theorem LookupTable.IsRead.isSettled {t : LookupTable} (h : t.IsRead) {rule : LookupRule}
    (hrule : rule ∈ t.rules) {call : Call} (hcall : call ∈ rule.calls) : call.IsSettled := by
  obtain ⟨label, hcalls⟩ := h rule hrule
  obtain ⟨letters, body, hread⟩ := isRead_of_parseInstructions hcalls hcall
  exact hread.isSettled

/-! ## Arguments -/

namespace Argument

variable {arg : Argument} {c : DrawingContext} {rule : String}

theorem IsWritten.literal_or_attribute (h : arg.IsWritten) :
    (∃ v, v ≠ .null ∧ arg = .literal v) ∨ ∃ code, code ≠ "" ∧ arg = .attribute code := by
  cases h with
  | text s => exact .inl ⟨.text s, by simp, rfl⟩
  | int n => exact .inl ⟨.int n, by simp, rfl⟩
  | real x => exact .inl ⟨.real x, by simp, rfl⟩
  | _ hlength =>
    refine .inr ⟨_, ?_, rfl⟩
    rintro rfl
    cases hlength

/-- A colour that is written like the code of an attribute is one of the palette. -/
def HasColour (p : Palette) : Argument → Prop
  | .attribute code => p.has code = true
  | _ => True

instance (p : Palette) (arg : Argument) : Decidable (arg.HasColour p) :=
  match arg with
  | .attribute code => inferInstanceAs (Decidable (p.has code = true))
  | .literal _ | .choice _ | .computed _ => inferInstanceAs (Decidable True)

theorem has_of_checkColour {v : Value} {p : Palette} (hv : v ≠ .null)
    (h : (Argument.literal v).checkColour p rule = .ok ()) : p.has v.plain = true := by
  have hdef : (Argument.literal v).checkColour p rule =
      if p.has v.plain then .ok ()
      else .error (.configuration (.unknownColour v.plain) (some rule)) := by
    cases v with
    | null => exact absurd rfl hv
    | _ => rfl
  rw [hdef] at h
  by_contra hhas
  rw [if_neg hhas] at h
  cases h

/-- A checked colour is drawn unless it is written like the code of an attribute. -/
theorem IsWritten.colour_isOk_iff (h : arg.IsWritten) (huniform : c.palette.IsUniform)
    (hcheck : arg.checkColour c.palette rule = .ok ()) :
    IsOk (arg.colour c) ↔ arg.HasColour c.palette := by
  obtain ⟨v, hv, rfl⟩ | ⟨code, -, rfl⟩ := h.literal_or_attribute
  · refine iff_of_true ?_ trivial
    exact (DrawingContext.colour_isOk_iff huniform v.plain).2 (has_of_checkColour hv hcheck)
  · exact DrawingContext.colour_isOk_iff huniform code

/-- What an argument gives as a whole number and not by default, it gives with any default. -/
theorem intLiteral_eq_of_ne {default n : Int} (h : arg.intLiteral default = .ok n)
    (hne : n ≠ default) (default' : Int) : arg.intLiteral default' = .ok n := by
  unfold intLiteral at h ⊢
  split at h
  · cases h
    exact absurd rfl hne
  · next v _ =>
    cases hv : v.toInt with
    | ok m =>
      rw [hv] at h
      exact h
    | error fault =>
      rw [hv] at h
      split at h
      · next heq => cases heq
      · cases h
      · cases h
        exact absurd rfl hne
  · cases h
    exact absurd rfl hne

/-- A written width that is checked is one that can be drawn. -/
theorem IsWritten.width_isOk {arg : Argument} (harg : arg.IsWritten) {units : Int}
    (hunits : arg.intLiteral (-1) = .ok units) (hwidth : (lineWidth? units).isSome = true) :
    IsOk arg.width := by
  have hne : units ≠ -1 := by
    rintro rfl
    cases hwidth
  obtain ⟨width, hwidth⟩ := Option.isSome_iff_exists.1 hwidth
  have hcommon : arg.width = arg.intLiteral 1 >>= widthOf := by
    obtain ⟨v, -, rfl⟩ | ⟨code, -, rfl⟩ := harg.literal_or_attribute
    all_goals rfl
  rw [hcommon, intLiteral_eq_of_ne hunits hne 1]
  show IsOk (widthOf units)
  rw [widthOf, hwidth]
  exact .ok _

end Argument

/-! ## Texts -/

/-- The parameters of a text leave nothing open: its numbers are finite, its character style gives a
height, and its colour is one of the palette. -/
structure TextIsDrawable (params : List Argument) (p : Palette) : Prop where
  finite : ∀ position ∈ textNumbers, ∀ arg ∈ params[position]?, arg.isInfinite = false
  height : GivesHeight (textStyle params)
  colour : ∀ arg ∈ params[6]?, arg.HasColour p

instance (params : List Argument) (p : Palette) : Decidable (TextIsDrawable params p) :=
  decidable_of_iff
    ((∀ position ∈ textNumbers, ∀ arg ∈ params[position]?, arg.isInfinite = false) ∧
      GivesHeight (textStyle params) ∧ ∀ arg ∈ params[6]?, arg.HasColour p)
    ⟨fun ⟨hfinite, hheight, hcolour⟩ => ⟨hfinite, hheight, hcolour⟩,
      fun h => ⟨h.finite, h.height, h.colour⟩⟩

theorem textFragment_isOk_iff_isDrawable {params : List Argument} {c : DrawingContext}
    {rule : String} (hwritten : ∀ arg ∈ params, arg.IsWritten) (huniform : c.palette.IsUniform)
    (htokens : ∀ token ∈ Procedure.drawnTokens, c.palette.has token = true)
    (hcheck : ∀ arg ∈ params[6]?, arg.checkColour c.palette rule = .ok ()) (text : Expr) :
    IsOk (textFragment text params c) ↔ TextIsDrawable params c.palette := by
  have htoken {token : String} (htoken : token ∈ Procedure.drawnTokens) : IsOk (c.colour token) :=
    (DrawingContext.colour_isOk_iff huniform token).2 (htokens token htoken)
  have hdefault : IsOk (c.colour defaultTextColour) := htoken (by decide)
  have hcolour : IsOk ((textColour (params.getD 6 (.literal (.text defaultTextColour)))).colour c) ↔
      ∀ arg ∈ params[6]?, arg.HasColour c.palette := by
    rw [List.getD_eq_getElem?_getD]
    cases harg : params[6]? with
    | none => exact iff_of_true hdefault fun arg h => by cases h
    | some arg =>
      have hwritten := hwritten arg (List.mem_of_getElem? harg)
      have hiff := hwritten.colour_isOk_iff huniform (hcheck arg harg)
      simp only [Option.getD_some, Option.mem_some_iff, forall_eq']
      obtain ⟨v, -, rfl⟩ | ⟨code, hcode, rfl⟩ := hwritten.literal_or_attribute
      · exact iff_of_true (textColour_isOk (hiff.2 trivial) hdefault) trivial
      · have htext : textColour (.attribute code) = .attribute code := if_neg hcode
        rw [htext, hiff]
  rw [textFragment_isOk_iff, hcolour]
  constructor
  · rintro ⟨hfinite, hheight, hcolour, -⟩
    exact ⟨hfinite, hheight, hcolour⟩
  · rintro ⟨hfinite, hheight, hcolour⟩
    exact ⟨hfinite, hheight, hcolour, htoken (by decide)⟩

/-! ## Calls -/

namespace Call

/-- The pieces of the template of a formatted text. -/
def templatePieces (call : Call) : List Text.Piece := Text.pieces (call.arg 0 .null).token.toList

/-- The codes of the attributes of a formatted text. -/
def templateCodes (call : Call) : List String := codesOf (call.arg 1 .null)

/-- What the check of calls does not look at. Line and fill colours that are written like codes of
attributes must be colours of the palette. Texts must be empty, or leave nothing open; and templates
must not ask for too many decimal places. Thresholds must lie in the range of the doubles where the
renderer may pick a colour by depth. -/
def IsDrawable (call : Call) (p : Palette) (s : Settings) : Prop :=
  match call.primitive with
  | .sy | .lc | .ap => True
  | .ls => (call.arg 2 .null).HasColour p
  | .ac => (call.arg 0 .null).HasColour p
  | .tx => call.arg 0 .null = .text "" ∨ TextIsDrawable (call.args.drop 1) p
  | .te =>
    Template.Fits call.templatePieces call.templateCodes ∧
      (Template.IsVoid call.templatePieces call.templateCodes ∨
        TextIsDrawable (call.args.drop 2) p)
  | .cs =>
    call.procedure? = .ok (some .depare01) ∨ call.procedure? = .ok (some .soundg02) → s.InRange

section

variable {call : Call} {c : DrawingContext} {rule : String}

theorem IsSettled.arg_isWritten (h : call.IsSettled) {position : Nat}
    (hposition : position < call.primitive.arity.1) (default : Value) :
    (call.arg position default).IsWritten := by
  have hlt : position < call.args.length := hposition.trans_le h.few
  refine h.written _ ?_
  rw [arg, List.getD_eq_getElem?_getD, List.getElem?_eq_getElem hlt]
  exact List.getElem_mem hlt

/-- An argument, or the default in its place, is a literal or names an attribute. -/
theorem IsSettled.arg_cases (h : call.IsSettled) (position : Nat) (default : Value) :
    (∃ v, call.arg position default = .literal v) ∨
      ∃ code, call.arg position default = .attribute code := by
  unfold arg
  rw [List.getD_eq_getElem?_getD]
  cases hget : call.args[position]? with
  | none => exact .inl ⟨default, rfl⟩
  | some arg =>
    obtain ⟨v, -, rfl⟩ | ⟨code, -, rfl⟩ :=
      (h.written arg (List.mem_of_getElem? hget)).literal_or_attribute
    · exact .inl ⟨v, rfl⟩
    · exact .inr ⟨code, rfl⟩

theorem checkLine_eq_ok {p : Palette} (h : call.checkLine p rule = .ok ()) :
    (call.arg 0 .null).lineStyle?.isSome = true ∧
      (∃ units, (call.arg 1 .null).intLiteral (-1) = .ok units ∧
        (lineWidth? units).isSome = true) ∧
      (call.arg 2 .null).checkColour p rule = .ok () := by
  unfold checkLine at h
  dsimp only at h
  split at h
  · cases h
  · next hstyle =>
    obtain ⟨units, hunits, h⟩ := except_bind_eq_ok_iff.1 h
    split at h
    · cases h
    · next hwidth =>
      rw [Option.isNone_iff_eq_none] at hstyle hwidth
      exact ⟨Option.isSome_iff_ne_none.2 hstyle,
        ⟨units, hunits, Option.isSome_iff_ne_none.2 hwidth⟩, h⟩

theorem checkFill_eq_ok {p : Palette} (h : call.checkFill p rule = .ok ()) :
    (call.arg 0 .null).checkColour p rule = .ok () ∧
      ∃ transparency, (call.arg 1 (.int 0)).intLiteral (-1) = .ok transparency ∧
        (fillOpacity? transparency).isSome = true := by
  unfold checkFill at h
  obtain ⟨⟨⟩, hcolour, h⟩ := except_bind_eq_ok_iff.1 h
  obtain ⟨transparency, htransparency, h⟩ := except_bind_eq_ok_iff.1 h
  split at h
  · cases h
  · next hopacity =>
    rw [Option.isNone_iff_eq_none] at hopacity
    exact ⟨hcolour, transparency, htransparency, Option.isSome_iff_ne_none.2 hopacity⟩

/-- A checked line is drawn unless its colour is written like the code of an attribute. -/
theorem IsSettled.drawLine_isOk_iff (h : call.IsSettled) (hls : call.primitive = .ls)
    (huniform : c.palette.IsUniform) (hcheck : call.checkLine c.palette rule = .ok ()) :
    IsOk (drawLine call c) ↔ (call.arg 2 .null).HasColour c.palette := by
  obtain ⟨hstyle, ⟨units, hunits, hwidth⟩, hcolour⟩ := checkLine_eq_ok hcheck
  have hwritten {position : Nat} (hlt : position < 3) : (call.arg position .null).IsWritten :=
    h.arg_isWritten (by rwa [hls]) .null
  have hdrawn : IsOk (call.arg 1 .null).width :=
    (hwritten (by decide)).width_isOk hunits hwidth
  rw [ChartStyle.drawLine_isOk_iff, (hwritten (by decide)).colour_isOk_iff huniform hcolour]
  exact ⟨fun hdraws => hdraws.2.1, fun hcolour => ⟨hdrawn, hcolour, hstyle⟩⟩

/-- A checked fill is drawn unless its colour is written like the code of an attribute. -/
theorem IsSettled.drawFill_isOk_iff (h : call.IsSettled) (hac : call.primitive = .ac)
    (huniform : c.palette.IsUniform) (hcheck : call.checkFill c.palette rule = .ok ()) :
    IsOk (drawFill call c) ↔ (call.arg 0 .null).HasColour c.palette := by
  obtain ⟨hcolour, transparency, htransparency, hopacity⟩ := checkFill_eq_ok hcheck
  have hwritten : (call.arg 0 .null).IsWritten := h.arg_isWritten (by rw [hac]; decide) .null
  have hne : transparency ≠ -1 := by
    rintro rfl
    cases hopacity
  have hliteral := Argument.intLiteral_eq_of_ne htransparency hne 0
  rw [ChartStyle.drawFill_isOk_iff, hwritten.colour_isOk_iff huniform hcolour]
  exact ⟨fun ⟨hcolour, _⟩ => hcolour,
    fun hcolour => ⟨hcolour, transparency, hliteral, hopacity⟩⟩

/-- A symbol is drawn whose turn can be read. -/
theorem IsSettled.drawSymbol_isOk (h : call.IsSettled)
    {a : AttributeSet} (hreadable : a.IsReadable) (c : DrawingContext) :
    IsOk (drawSymbol call a c).outcome := by
  have hfixed (name : String) : IsOk (fixedIcon name a c).outcome := by
    unfold fixedIcon
    cases c.registry.find? name <;> exact .ok _
  have hicon : IsOk (iconOf (call.arg 0 .null) a c).outcome := by
    obtain ⟨v, harg⟩ | ⟨code, harg⟩ := h.arg_cases 0 .null
    all_goals
      rw [harg]
      exact hfixed _
  refine ChartStyle.drawSymbol_isOk hicon ?_
  obtain ⟨v, harg⟩ | ⟨code, harg⟩ := h.arg_cases 1 (.int 0)
  · rw [harg]
    exact .ok _
  · rw [harg, Turn.ofArgument]
    split
    · exact .report_bind (hreadable.real code _) fun _ _ => .ok _
    · exact .ok _

end

/-! ## Every attribute set -/

section

variable {call : Call} {p : Palette} {s : Settings} {registry : Registry} {rule : String}

/-- Whatever can be read of the attributes, the call is drawn. -/
def AlwaysDraws (call : Call) (s : Settings) (p : Palette) (registry : Registry) : Prop :=
  ∀ (a : AttributeSet) (t : TableSet), a.IsReadable → IsOk (call.draw a ⟨s, p, registry, t⟩).outcome

theorem alwaysDraws_iff_of_plain (h : call.primitive ≠ .cs) : call.AlwaysDraws s p registry ↔
    ∀ (a : AttributeSet) (t : TableSet), a.IsReadable →
      IsOk (call.drawPlain a ⟨s, p, registry, t⟩).outcome := by
  simp only [AlwaysDraws, draw_of_plain _ _ h]

theorem checkColour_of_checkColourAt {args : List Argument} {dropped position : Nat}
    (h : Argument.checkColourAt args (dropped + position) p rule = .ok ()) :
    ∀ arg ∈ (args.drop dropped)[position]?, arg.checkColour p rule = .ok () := by
  intro arg harg
  rw [List.getElem?_drop] at harg
  rwa [Argument.checkColourAt, harg] at h

theorem IsSettled.textFragment_iff (h : call.IsSettled) (huniform : p.IsUniform)
    (htokens : ∀ token ∈ Procedure.drawnTokens, p.has token = true) {dropped : Nat}
    (hcheck : Argument.checkColourAt call.args (dropped + 6) p rule = .ok ()) (text : Expr)
    (t : TableSet) :
    IsOk (textFragment text (call.args.drop dropped) ⟨s, p, registry, t⟩) ↔
      TextIsDrawable (call.args.drop dropped) p :=
  textFragment_isOk_iff_isDrawable (fun arg harg => h.written arg (List.mem_of_mem_drop harg))
    huniform htokens (checkColour_of_checkColourAt hcheck) text

/-- A text that leaves nothing open is drawn. -/
theorem IsSettled.drawText_isOk (h : call.IsSettled) (htx : call.primitive = .tx)
    (huniform : p.IsUniform) (htokens : ∀ token ∈ Procedure.drawnTokens, p.has token = true)
    (hcheck : Argument.checkColourAt call.args 7 p rule = .ok ())
    (hdrawable : call.arg 0 .null = .text "" ∨ TextIsDrawable (call.args.drop 1) p)
    (a : AttributeSet) (t : TableSet) : IsOk (drawText call a ⟨s, p, registry, t⟩) := by
  have hwritten : (call.arg 0 .null).IsWritten := h.arg_isWritten (by rw [htx]; decide) .null
  have htext : ∃ text, textOfArgument (call.arg 0 .null) a = .ok text := by
    obtain ⟨v, -, harg⟩ | ⟨code, -, harg⟩ := hwritten.literal_or_attribute
    · exact ⟨_, by rw [harg]; rfl⟩
    · rw [harg, textOfArgument]
      cases a.known? code <;> exact ⟨_, rfl⟩
  obtain ⟨text, htext⟩ := htext
  refine IsOk.bind_iff.2 ⟨text, htext, ?_⟩
  cases text with
  | none => exact .ok _
  | some text =>
    rcases hdrawable with hempty | hdrawable
    · rw [hempty] at htext
      cases htext
    · exact (h.textFragment_iff huniform htokens hcheck text t).2 hdrawable

theorem IsSettled.drawText_iff (h : call.IsSettled) (htx : call.primitive = .tx)
    (huniform : p.IsUniform) (htokens : ∀ token ∈ Procedure.drawnTokens, p.has token = true)
    (hcheck : Argument.checkColourAt call.args 7 p rule = .ok ()) :
    (∀ (a : AttributeSet) (t : TableSet), a.IsReadable →
      IsOk (drawText call a ⟨s, p, registry, t⟩)) ↔
      call.arg 0 .null = .text "" ∨ TextIsDrawable (call.args.drop 1) p := by
  refine ⟨fun hdraws => ?_,
    fun hdrawable a t _ => h.drawText_isOk htx huniform htokens hcheck hdrawable a t⟩
  by_cases hempty : call.arg 0 .null = .text ""
  · exact .inl hempty
  · -- Without attributes there is a text, unless it is the empty one.
    have hwritten : (call.arg 0 .null).IsWritten := h.arg_isWritten (by rw [htx]; decide) .null
    have htext : ∃ text, textOfArgument (call.arg 0 .null) .bare = .ok (some text) := by
      obtain ⟨v, hv, harg⟩ | ⟨code, -, harg⟩ := hwritten.literal_or_attribute
      · rw [harg] at hempty ⊢
        cases v with
        | null => exact absurd rfl hv
        | text s =>
          have hs : s ≠ "" := fun hs => hempty (by rw [hs]; rfl)
          exact ⟨.text s, by simp only [textOfArgument, textOfValue, if_neg hs]⟩
        | _ => exact ⟨_, rfl⟩
      · rw [harg]
        exact ⟨.get code, rfl⟩
    obtain ⟨text, htext⟩ := htext
    have hok := hdraws .bare .points AttributeSet.isReadable_bare
    unfold drawText at hok
    rw [htext] at hok
    exact .inr ((h.textFragment_iff huniform htokens hcheck text .points).1 hok)

theorem drawFormattedText_eq (call : Call) (a : AttributeSet) (c : DrawingContext) :
    drawFormattedText call a c =
      Template.fillAll a call.templatePieces call.templateCodes >>= fun es =>
        liftM (drawTextExpr ((es.map Template.join).bind notEmpty) (call.args.drop 2) c) := by
  unfold drawFormattedText Template.format
  rw [bind_assoc]
  rfl

/-- What a template is filled with is drawn, unless the template leaves no text. -/
theorem IsSettled.drawFilled_isOk (h : call.IsSettled) (huniform : p.IsUniform)
    (htokens : ∀ token ∈ Procedure.drawnTokens, p.has token = true)
    (hcheck : Argument.checkColourAt call.args 8 p rule = .ok ())
    (hdrawable : Template.IsVoid call.templatePieces call.templateCodes ∨
      TextIsDrawable (call.args.drop 2) p)
    {a : AttributeSet} {filled : Option (List Expr)}
    (hfilled : (Template.fillAll a call.templatePieces call.templateCodes).outcome = .ok filled)
    (t : TableSet) :
    IsOk (drawTextExpr ((filled.map Template.join).bind notEmpty) (call.args.drop 2)
      ⟨s, p, registry, t⟩) := by
  cases htext : (filled.map Template.join).bind notEmpty with
  | none => exact .ok _
  | some text =>
    rcases hdrawable with hvoid | hdrawable
    · obtain ⟨es, hes, hempty⟩ := Template.fillAll_of_isVoid (a := a) hvoid
      rw [hes] at hfilled
      cases hfilled
      rw [Option.map_some, Option.bind_some,
        (Template.notEmpty_join_eq_none_iff es).2 hempty] at htext
      cases htext
    · exact (h.textFragment_iff huniform htokens hcheck text t).2 hdrawable

theorem IsSettled.drawFormattedText_iff (h : call.IsSettled) (huniform : p.IsUniform)
    (htokens : ∀ token ∈ Procedure.drawnTokens, p.has token = true)
    (hcheck : Argument.checkColourAt call.args 8 p rule = .ok ()) :
    (∀ (a : AttributeSet) (t : TableSet), a.IsReadable →
      IsOk (drawFormattedText call a ⟨s, p, registry, t⟩).outcome) ↔
      Template.Fits call.templatePieces call.templateCodes ∧
        (Template.IsVoid call.templatePieces call.templateCodes ∨
          TextIsDrawable (call.args.drop 2) p) := by
  constructor
  · intro hdraws
    constructor
    · -- Where all attributes are known numbers, every field is filled.
      have hok := hdraws (.zeros call.templateCodes) .points (AttributeSet.isReadable_zeros _)
      obtain ⟨text, htext, -⟩ := Report.outcome_bind_eq_ok_iff.1 hok.choose_spec
      obtain ⟨es, hes, -⟩ := Report.outcome_bind_eq_ok_iff.1 htext
      refine Template.fits_of_fillAll (fun code hcode => ?_) ⟨es, hes⟩
      have hknown : (AttributeSet.zeros call.templateCodes).known? code = some (.int 0) := by
        rw [AttributeSet.known?_zeros, if_pos hcode]
      refine ⟨?_, 0, ?_⟩
      · rw [AttributeSet.isKnown_eq, hknown]
        rfl
      · rw [AttributeSet.getReal_eq, hknown]
        rfl
    · -- Without attributes there is a text, unless the template has none.
      obtain ⟨es, hes, -⟩ := Template.fillAll_of_unknown (a := .bare) (fun code => rfl)
        call.templatePieces call.templateCodes
      have hok := hdraws .bare .points AttributeSet.isReadable_bare
      rw [drawFormattedText_eq, hes, pure_bind, Option.map_some, Option.bind_some] at hok
      cases hempty : notEmpty (Template.join es) with
      | none => exact .inl (Template.isVoid_of_unknown (fun code => rfl) hes hempty)
      | some text =>
        rw [hempty] at hok
        exact .inr ((h.textFragment_iff huniform htokens hcheck text .points).1 hok)
  · rintro ⟨hfits, hdrawable⟩ a t hreadable
    rw [drawFormattedText_eq]
    refine .report_bind (Template.fillAll_isOk (fun code => hreadable.real code .null) hfits) ?_
    exact fun filled hfilled =>
      .lift (h.drawFilled_isOk huniform htokens hcheck hdrawable hfilled t)

theorem IsSettled.drawProcedure_iff (h : call.IsSettled) (hcs : call.primitive = .cs)
    (huniform : p.IsUniform) (htokens : ∀ token ∈ Procedure.drawnTokens, p.has token = true)
    (hs : s.IsNumeric) :
    call.AlwaysDraws s p registry ↔
      (call.procedure? = .ok (some .depare01) ∨ call.procedure? = .ok (some .soundg02) →
        s.InRange) := by
  obtain ⟨name, procedure, -, hprocedure, -⟩ := h.procedure hcs
  constructor
  · intro hdraws hpicks
    by_contra hrange
    have hok := hdraws .deferred .points AttributeSet.isReadable_deferred
    rw [draw_of_procedure _ _ hprocedure] at hok
    obtain ⟨calls, hcalls, -⟩ := Report.outcome_bind_eq_ok_iff.1 hok.choose_spec
    refine Procedure.evaluate_fails hs ?_ hrange ⟨calls, hcalls⟩
    rw [hprocedure] at hpicks
    rcases hpicks with heq | heq
    all_goals
      cases heq
      rfl
  · intro hrange a t hreadable
    rw [draw_of_procedure _ _ hprocedure]
    have hpicks : procedure.PicksByDepth a → s.InRange := by
      intro hpicks
      refine hrange ?_
      rw [hprocedure]
      cases procedure with
      | depare01 => exact .inl rfl
      | soundg02 => exact .inr rfl
      | depcnt02 | lights05 | obstrn04 | wrecks02 => exact hpicks.elim
    refine .report_bind (Procedure.exists_calls_of_readings hs hpicks fun r _ =>
      hreadable.not_exceeds r) fun calls hcalls => ?_
    have hown := procedure.evaluate_gives_own a s t calls hcalls
    exact Procedure.drawAllPlain_isOk fun call hcall => (hown call hcall).draws huniform htokens

/-- A checked call is drawn for all attributes that can be read just when the check has left nothing
open. -/
theorem IsSettled.alwaysDraws_iff (h : call.IsSettled) (huniform : p.IsUniform)
    (htokens : ∀ token ∈ Procedure.drawnTokens, p.has token = true)
    (hcheck : call.check p rule = .ok ()) (hs : s.IsNumeric) :
    call.AlwaysDraws s p registry ↔ call.IsDrawable p s := by
  by_cases hcs : call.primitive = .cs
  · rw [h.drawProcedure_iff hcs huniform htokens hs, IsDrawable, hcs]
  · rw [alwaysDraws_iff_of_plain hcs]
    unfold check at hcheck
    unfold IsDrawable drawPlain
    cases hprimitive : call.primitive with
    | sy =>
      exact iff_of_true (fun a t hreadable => h.drawSymbol_isOk hreadable _) trivial
    | ls =>
      rw [hprimitive] at hcheck
      have hline (t : TableSet) : IsOk (drawLine call ⟨s, p, registry, t⟩) ↔ _ :=
        h.drawLine_isOk_iff hprimitive huniform hcheck
      exact ⟨fun hdraws => (hline .points).1 (hdraws .bare .points AttributeSet.isReadable_bare),
        fun hcolour a t _ => (hline t).2 hcolour⟩
    | ac =>
      rw [hprimitive] at hcheck
      have hfill (t : TableSet) : IsOk (drawFill call ⟨s, p, registry, t⟩) ↔ _ :=
        h.drawFill_isOk_iff hprimitive huniform hcheck
      exact ⟨fun hdraws => (hfill .points).1 (hdraws .bare .points AttributeSet.isReadable_bare),
        fun hcolour a t _ => (hfill t).2 hcolour⟩
    | lc => exact iff_of_true (fun a t _ => drawComplexLine_isOk call a _) trivial
    | ap => exact iff_of_true (fun a t _ => drawPattern_isOk call a _) trivial
    | tx =>
      rw [hprimitive] at hcheck
      exact h.drawText_iff hprimitive huniform htokens hcheck
    | te =>
      rw [hprimitive] at hcheck
      exact h.drawFormattedText_iff huniform htokens hcheck
    | cs => exact absurd hprimitive hcs

end

end Call

/-! ## Presentations -/

/-- For attributes that can be read, a call of a table that was read and checked is always drawn
just when it is `Call.IsDrawable`. -/
theorem Presentation.checkedCall_draws_iff (p : Presentation) (hread : p.table.IsRead)
    (huniform : p.palette.IsUniform)
    (htokens : ∀ token ∈ Procedure.drawnTokens, p.palette.has token = true) {rule : LookupRule}
    (hrule : rule ∈ p.table.rules) {call : Call} (hcall : call ∈ rule.calls) {s : Settings}
    (hs : s.validate.outcome = .ok ()) :
    (∀ (a : AttributeSet) (t : TableSet), a.IsReadable →
      ∃ fragments, (call.draw a (p.context s t)).outcome = .ok fragments) ↔
      call.IsDrawable p.palette s :=
  (hread.isSettled hrule hcall).alwaysDraws_iff huniform htokens (p.check_of_mem hrule hcall)
    (Settings.isNumeric_of_validate hs)

/-! ## The bundled palette -/

namespace Bundled

/-- The bundled palette defines the same tokens in every mode. -/
theorem palette_isUniform : palette.IsUniform := by
  have htokens (mode : DisplayMode) :
      Palette.tokensOf (palette.table mode) = colours.map ColourRow.token := by
    cases mode <;> exact List.map_map
  intro mode token
  rw [Bool.eq_iff_iff, Palette.isSome_lookup_iff, Palette.isSome_lookup_iff]
  exact iff_of_eq (congrArg (token ∈ ·) ((htokens mode).trans (htokens .day).symm))

/-- The bundled palette has the colours of procedures and texts. -/
theorem palette_has_drawnTokens : ∀ token ∈ Procedure.drawnTokens, palette.has token = true := by
  decide +kernel

end Bundled

/-- The record of a rule that names sea areas. -/
def seaRecord : Value :=
  .ofFields [("object_class", .text "SEAARE"), ("table_set", .text "AREAS"),
    ("instruction", .text "TX(OBJNAM,1,2,3,'15112',0,0,CHBLK,26)"), ("priority", .int 2)]

/-- What names a sea area. -/
def seaCall : Call :=
  ⟨.tx, [.attribute "OBJNAM", .int 1, .int 2, .int 3, .text "15112", .int 0, .int 0, .text "CHBLK",
    .int 26]⟩

/-- The rule of the record. -/
def seaRule : LookupRule where
  objectClass := "SEAARE"
  tableSet := .areas
  constraints := []
  instruction := "TX(OBJNAM,1,2,3,'15112',0,0,CHBLK,26)"
  priority := 2
  category := .standard
  viewingGroup := 0
  index := 0
  calls := [seaCall]

/-- The presentation with that rule alone. -/
def seaPresentation : Presentation where
  table := LookupTable.ofRules [seaRule]
  registry := Bundled.registry
  palette := Bundled.palette
  checked := by with_unfolding_all rfl

set_option maxRecDepth 10000 in
/-- Sea areas are named, whatever can be read of their attributes. -/
theorem Presentation.checkedCall_draws_seaPresentation :
    LookupTable.ofRecords [seaRecord] = .ok seaPresentation.table ∧
      ∀ (a : AttributeSet) (t : TableSet), a.IsReadable →
        ∃ fragments, (seaCall.draw a (seaPresentation.context {} t)).outcome = .ok fragments := by
  have htable : LookupTable.ofRecords [seaRecord] = .ok seaPresentation.table := by
    with_unfolding_all rfl
  have hrule : seaRule ∈ seaPresentation.table.rules :=
    LookupTable.mem_rules_ofRules.2 List.mem_cons_self
  have hcall : seaCall ∈ seaRule.calls := List.mem_cons_self
  have hs : (Settings.validate {}).outcome = .ok () := by with_unfolding_all rfl
  have hdraws := seaPresentation.checkedCall_draws_iff (LookupTable.isRead_of_ofRecords htable)
    Bundled.palette_isUniform Bundled.palette_has_drawnTokens hrule hcall hs
  have hdrawable : TextIsDrawable (seaCall.args.drop 1) seaPresentation.palette := by decide +kernel
  exact ⟨htable, hdraws.2 (.inr hdrawable)⟩

/-- The record of a rule whose colour is written like the code of an attribute. -/
def misreadRecord : Value :=
  .ofFields [("object_class", .text "LNDARE"), ("table_set", .text "AREAS"),
    ("instruction", .text "AC(DEPVSX)"), ("priority", .int 1)]

/-- The rule of the record. -/
def misreadRule : LookupRule where
  objectClass := "LNDARE"
  tableSet := .areas
  constraints := []
  instruction := "AC(DEPVSX)"
  priority := 1
  category := .standard
  viewingGroup := 0
  index := 0
  calls := [⟨.ac, [.attribute "DEPVSX"]⟩]

/-- The presentation with that rule alone: it passes the checks. -/
def misreadPresentation : Presentation where
  table := LookupTable.ofRules [misreadRule]
  registry := Bundled.registry
  palette := Bundled.palette
  checked := by with_unfolding_all rfl

set_option maxRecDepth 10000 in
/-- A checked call need not be drawn, even without any attributes: the colour of the rule is
unknown, but it looks like the code of an attribute. -/
theorem Presentation.checkedCall_unknownColour :
    LookupTable.ofRecords [misreadRecord] = .ok misreadPresentation.table ∧
      misreadPresentation.palette.IsUniform ∧
      (∀ token ∈ Procedure.drawnTokens, misreadPresentation.palette.has token = true) ∧
      (Settings.validate {}).outcome = .ok () ∧ AttributeSet.bare.IsReadable ∧
      misreadRule ∈ misreadPresentation.table.rules ∧
      ∃ call ∈ misreadRule.calls,
        (call.draw .bare (misreadPresentation.context {} .areas)).outcome =
          .error (.configuration (.unknownColour "DEPVSX") none) := by
  refine ⟨by with_unfolding_all rfl, Bundled.palette_isUniform, Bundled.palette_has_drawnTokens,
    by with_unfolding_all rfl, AttributeSet.isReadable_bare,
    LookupTable.mem_rules_ofRules.2 List.mem_cons_self, _, List.mem_cons_self, ?_⟩
  with_unfolding_all rfl

end ChartStyle
