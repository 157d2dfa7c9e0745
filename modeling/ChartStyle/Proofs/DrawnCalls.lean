import ChartStyle.Proofs.PaletteTokens
import ChartStyle.Proofs.ProcedureCalls
import ChartStyle.Proofs.Readings

/-!
# Calls that are drawn

When drawing succeeds: a colour is drawn when the palette has its token, a choice when each of its
options is, and a text just when its numbers are finite, its character style gives a height and it
has colours (`textFragment_isOk_iff`). So the calls that procedures give are drawn with any palette
that has their colours (`Procedure.IsOwn.draws`).
-/

set_option autoImplicit false

namespace ChartStyle

/-- The operation succeeds. -/
def IsOk {α : Type} (outcome : Except Fault α) : Prop := ∃ a, outcome = .ok a

namespace IsOk

variable {α β : Type}

theorem ok (a : α) : IsOk (.ok a) := ⟨a, rfl⟩

theorem not_error (fault : Fault) : ¬ IsOk (.error fault : Except Fault α) := by
  rintro ⟨a, h⟩
  cases h

theorem bind_iff {x : Except Fault α} {f : α → Except Fault β} :
    IsOk (x >>= f) ↔ ∃ a, x = .ok a ∧ IsOk (f a) := by
  constructor
  · rintro ⟨b, hb⟩
    obtain ⟨a, ha, hb⟩ := except_bind_eq_ok_iff.1 hb
    exact ⟨a, ha, b, hb⟩
  · rintro ⟨a, ha, b, hb⟩
    exact ⟨b, except_bind_eq_ok_iff.2 ⟨a, ha, hb⟩⟩

theorem bind {x : Except Fault α} {f : α → Except Fault β} (hx : IsOk x)
    (hf : ∀ a, x = .ok a → IsOk (f a)) : IsOk (x >>= f) := by
  obtain ⟨a, ha⟩ := hx
  exact bind_iff.2 ⟨a, ha, hf a ha⟩

/-- Whether the second operation succeeds does not depend on what the first one gives. -/
theorem bind_and_iff {x : Except Fault α} {f : α → Except Fault β} {p : Prop}
    (hf : ∀ a, x = .ok a → (IsOk (f a) ↔ p)) : IsOk (x >>= f) ↔ IsOk x ∧ p := by
  rw [bind_iff]
  constructor
  · rintro ⟨a, ha, hfa⟩
    exact ⟨⟨a, ha⟩, (hf a ha).1 hfa⟩
  · rintro ⟨⟨a, ha⟩, hp⟩
    exact ⟨a, ha, (hf a ha).2 hp⟩

theorem lift {x : Except Fault α} (h : IsOk x) : IsOk (liftM x : Report α).outcome := h

theorem report_bind {x : Report α} {f : α → Report β} (hx : IsOk x.outcome)
    (hf : ∀ a, x.outcome = .ok a → IsOk (f a).outcome) : IsOk (x >>= f).outcome := by
  obtain ⟨a, ha⟩ := hx
  obtain ⟨b, hb⟩ := hf a ha
  exact ⟨b, Report.outcome_bind_eq_ok_iff.2 ⟨a, ha, hb⟩⟩

end IsOk

theorem Report.events_bind_eq_nil {α β : Type} {x : Report α} {f : α → Report β}
    (hx : x.events = []) (hf : ∀ a, x.outcome = .ok a → (f a).events = []) :
    (x >>= f).events = [] := by
  cases h : x.outcome with
  | error fault =>
    rw [bind_of_error h]
    exact hx
  | ok a =>
    rw [bind_of_ok h, hx, List.nil_append]
    exact hf a h

/-! ## Choices -/

namespace Choice

variable {property : Value → Prop} {convert : Value → Except Fault Expr}

theorem convertStops_isOk {stops : List (Expr × Value)}
    (h : ∀ stop ∈ stops, IsOk (convert stop.2)) : IsOk (convertStops convert stops) := by
  induction stops with
  | nil => exact .ok _
  | cons stop stops ih =>
    obtain ⟨hstop, hrest⟩ := List.forall_mem_cons.1 h
    exact .bind hstop fun _ _ => .bind (ih hrest) fun _ _ => .ok _

theorem convertLabels_isOk {stops : List (Expr × Value)}
    (hlabels : ∀ stop ∈ stops, IsOk stop.1.toValue.items)
    (h : ∀ stop ∈ stops, IsOk (convert stop.2)) : IsOk (convertLabels convert stops) := by
  induction stops with
  | nil => exact .ok _
  | cons stop stops ih =>
    obtain ⟨hstop, hrest⟩ := List.forall_mem_cons.1 h
    obtain ⟨hselector, hothers⟩ := List.forall_mem_cons.1 hlabels
    refine .bind hselector fun _ _ => .bind hstop fun _ _ => ?_
    exact .bind (ih hothers hrest) fun _ _ => .ok _

/-- The renderer has the operator, and labels are lists or what else holds several items. -/
def IsPickable (c : Choice) : Prop :=
  match c.operator with
  | .step | .case => True
  | .pick => ∀ stop ∈ c.stops, IsOk stop.1.toValue.items
  | .unknown _ => False

/-- A choice is converted when its options are. -/
theorem IsPickable.expression_isOk {c : Choice} (hc : c.IsPickable)
    (h : ∀ v ∈ c.options, IsOk (convert v)) : IsOk (c.expression convert) := by
  obtain ⟨hdefault, hoptions⟩ := List.forall_mem_cons.1 h
  have hstops : ∀ stop ∈ c.stops, IsOk (convert stop.2) := fun stop hstop =>
    hoptions _ (List.mem_map_of_mem hstop)
  unfold IsPickable at hc
  unfold expression
  cases hc' : c.operator with
  | step => exact .bind hdefault fun _ _ => .bind (convertStops_isOk hstops) fun _ _ => .ok _
  | case => exact .bind (convertStops_isOk hstops) fun _ _ => .bind hdefault fun _ _ => .ok _
  | pick =>
    rw [hc'] at hc
    exact .bind (convertLabels_isOk hc hstops) fun _ _ => .bind hdefault fun _ _ => .ok _
  | unknown name =>
    rw [hc'] at hc
    exact hc.elim

theorem Offers.isPickable {c : Choice} (hc : c.Offers property) : c.IsPickable := by
  have hoperator := hc.operator
  unfold IsPickable
  cases hc' : c.operator with
  | step | case => exact trivial
  | pick =>
    rw [hc'] at hoperator
    intro stop hstop
    obtain ⟨labels, hlabels⟩ := hoperator stop hstop
    rw [hlabels]
    exact .ok labels
  | unknown name =>
    rw [hc'] at hoperator
    exact hoperator.elim

theorem Offers.expression_isOk {c : Choice} (hc : c.Offers property)
    (h : ∀ v, property v → IsOk (convert v)) : IsOk (c.expression convert) :=
  hc.isPickable.expression_isOk fun v hv => h v (hc.options v hv)

end Choice

/-! ## Colours, widths and numbers -/

theorem DrawingContext.colour_isOk_iff {c : DrawingContext} (h : c.palette.IsUniform)
    (token : String) : IsOk (c.colour token) ↔ c.palette.has token = true := by
  have hmode := h c.settings.mode token
  unfold colour Palette.resolve Palette.has
  cases hlookup : (c.palette.table c.settings.mode).lookup token with
  | none =>
    rw [hlookup] at hmode
    rw [← hmode]
    exact iff_of_false (IsOk.not_error _) Bool.false_ne_true
  | some colour =>
    rw [hlookup] at hmode
    rw [← hmode]
    exact iff_of_true (.ok _) rfl

namespace Argument

variable {c : DrawingContext}

theorem colour_isOk {arg : Argument} {texts : List String} (huniform : c.palette.IsUniform)
    (htexts : ∀ text ∈ texts, c.palette.has text = true) (h : arg.Offers (IsTextIn texts)) :
    IsOk (arg.colour c) := by
  cases arg with
  | literal v =>
    obtain ⟨text, htext, rfl⟩ := h
    exact (DrawingContext.colour_isOk_iff huniform text).2 (htexts text htext)
  | choice choice =>
    refine Choice.Offers.expression_isOk h ?_
    rintro _ ⟨text, htext, rfl⟩
    exact (DrawingContext.colour_isOk_iff huniform text).2 (htexts text htext)
  | _ => exact h.elim

theorem width_isOk {arg : Argument} (h : arg.Offers Procedure.IsLineWidth) : IsOk arg.width := by
  have hwidth {units : Int} (hunits : (lineWidth? units).isSome = true) : IsOk (widthOf units) := by
    obtain ⟨width, hwidth⟩ := Option.isSome_iff_exists.1 hunits
    rw [widthOf, hwidth]
    exact .ok _
  cases arg with
  | literal v =>
    obtain ⟨units, rfl, hunits⟩ := h
    exact hwidth hunits
  | choice choice =>
    show IsOk (choice.expression fun v => do widthOf (← v.toInt))
    refine Choice.Offers.expression_isOk h ?_
    rintro _ ⟨units, rfl, hunits⟩
    exact hwidth hunits
  | _ => exact h.elim

/-- The argument is an infinite number. -/
def isInfinite : Argument → Bool
  | .literal (.real (.infinite _)) => true
  | _ => false

/-- A literal is read as a whole number, or replaced by a default, unless it is infinite. -/
theorem intLiteral_isOk_iff (arg : Argument) (default : Int) :
    IsOk (arg.intLiteral default) ↔ arg.isInfinite = false := by
  cases arg with
  | literal v =>
    cases v with
    | real x =>
      cases x with
      | infinite negative => exact iff_of_false (IsOk.not_error _) nofun
      | nan | finite => exact iff_of_true (.ok _) rfl
    | text s =>
      refine iff_of_true ?_ rfl
      simp only [intLiteral, Value.toInt]
      cases Text.readInt? s with
      | none => exact .ok _
      | some n => exact .ok _
    | null | bool b | int n | list items | map entries | perFeature => exact iff_of_true (.ok _) rfl
  | _ => exact iff_of_true (.ok _) rfl

end Argument

/-! ## Texts -/

/-- The positions of the numbers among the parameters of a text. -/
def textNumbers : List Nat := [0, 1, 2, 4, 5]

/-- The character style among the parameters of a text. -/
def textStyle (params : List Argument) : List Char :=
  (params.getD 3 (.literal (.text ""))).token.toList

/-- The character style gives a height: it has no digits from its fourth character on, or these are
read as a number in the range of the doubles. -/
def GivesHeight (chars : List Char) : Prop :=
  chars.drop 3 ≠ [] → (chars.drop 3).all Text.isDigit = true →
    ((Text.readInt? (String.ofList (chars.drop 3))).bind Double.ofInt?).isSome = true

instance (chars : List Char) : Decidable (GivesHeight chars) :=
  inferInstanceAs (Decidable (_ → _ → _ = true))

theorem textSize_isOk_iff (points : Int) :
    IsOk (textSize points) ↔ (Double.ofInt? points).isSome = true := by
  unfold textSize
  rw [IsOk.bind_iff]
  unfold Value.toDouble
  cases h : Double.ofInt? points with
  | none => simp [h]
  | some x => exact iff_of_true ⟨x, by simp only [h], .ok _⟩ rfl

theorem textHeight_isOk_iff (chars : List Char) :
    (∃ height, textHeight chars = .ok height ∧ IsOk (textSize height)) ↔ GivesHeight chars := by
  unfold textHeight GivesHeight
  by_cases hdigits : (!(chars.drop 3).isEmpty && (chars.drop 3).all Text.isDigit) = true
  · simp only [hdigits, if_true, Value.toInt]
    rw [Bool.and_eq_true, Bool.not_eq_true', List.isEmpty_eq_false_iff] at hdigits
    simp only [hdigits, ne_eq, not_false_eq_true, forall_const]
    cases Text.readInt? (String.ofList (chars.drop 3)) with
    | none => simp
    | some n => simp [textSize_isOk_iff]
  · simp only [hdigits, Bool.false_eq_true, if_false]
    refine iff_of_true ⟨defaultTextHeight, rfl, ?_⟩ ?_
    · exact (textSize_isOk_iff _).2 (by decide +kernel)
    · intro hne hall
      exact absurd (by simp [hne, hall]) hdigits

theorem isInfinite_getD_iff {params : List Argument} {position : Nat} {default : Argument}
    (hdefault : default.isInfinite = false) :
    (params.getD position default).isInfinite = false ↔
      ∀ arg ∈ params[position]?, arg.isInfinite = false := by
  rw [List.getD_eq_getElem?_getD]
  cases params[position]? with
  | none => simpa using hdefault
  | some arg => simp

/-- A text is drawn just when its numbers are finite, its character style gives a height, and there
are colours for it and around it. -/
theorem textFragment_isOk_iff (text : Expr) (params : List Argument) (c : DrawingContext) :
    IsOk (textFragment text params c) ↔
      (∀ position ∈ textNumbers, ∀ arg ∈ params[position]?, arg.isInfinite = false) ∧
      GivesHeight (textStyle params) ∧
      IsOk ((textColour (params.getD 6 (.literal (.text defaultTextColour)))).colour c) ∧
      IsOk (c.colour haloColour) := by
  have hint (n : Int) : (Argument.literal (.int n)).isInfinite = false := rfl
  have hsteps : IsOk (textFragment text params c) ↔ _ :=
    IsOk.bind_and_iff fun hjust _ => IsOk.bind_and_iff fun vjust _ =>
      IsOk.bind_and_iff fun space _ => IsOk.bind_iff.trans <| exists_congr fun height =>
        and_congr_right fun _ =>
        IsOk.bind_and_iff fun x _ => IsOk.bind_and_iff fun y _ => IsOk.bind_and_iff fun size _ =>
          IsOk.bind_and_iff fun colour _ => IsOk.bind_and_iff (p := True) fun halo _ =>
            iff_of_true (.ok _) trivial
  simp only [Argument.intLiteral_isOk_iff, isInfinite_getD_iff (hint _)] at hsteps
  rw [hsteps, ← textHeight_isOk_iff]
  simp only [textNumbers, List.forall_mem_cons, List.not_mem_nil, false_implies, implies_true,
    and_true]
  constructor
  · rintro ⟨hhjust, hvjust, hspace, height, hheight, hx, hy, hsize, hcolour, hhalo⟩
    exact ⟨⟨hhjust, hvjust, hspace, hx, hy⟩, ⟨height, hheight, hsize⟩, hcolour, hhalo⟩
  · rintro ⟨⟨hhjust, hvjust, hspace, hx, hy⟩, ⟨height, hheight, hsize⟩, hcolour, hhalo⟩
    exact ⟨hhjust, hvjust, hspace, height, hheight, hx, hy, hsize, hcolour, hhalo⟩

/-- The fragment of a text: a symbol layer with the text, and no image and no pattern. -/
structure Fragment.IsText (f : Fragment) (text : Expr) : Prop where
  kind : f.kind = .symbol
  text : f.layout.lookup "text-field" = some text
  image : f.layout.lookup "icon-image" = none
  linePattern : f.paint.lookup "line-pattern" = none
  fillPattern : f.paint.lookup "fill-pattern" = none

theorem exists_of_textFragment {text : Expr} {params : List Argument} {c : DrawingContext}
    {fragments : List Fragment} (h : textFragment text params c = .ok fragments) :
    ∃ f : Fragment, fragments = [f] ∧ f.IsText text := by
  obtain ⟨hjust, -, h⟩ := except_bind_eq_ok_iff.1 h
  obtain ⟨vjust, -, h⟩ := except_bind_eq_ok_iff.1 h
  obtain ⟨space, -, h⟩ := except_bind_eq_ok_iff.1 h
  obtain ⟨height, -, h⟩ := except_bind_eq_ok_iff.1 h
  obtain ⟨x, -, h⟩ := except_bind_eq_ok_iff.1 h
  obtain ⟨y, -, h⟩ := except_bind_eq_ok_iff.1 h
  obtain ⟨size, -, h⟩ := except_bind_eq_ok_iff.1 h
  obtain ⟨colour, -, h⟩ := except_bind_eq_ok_iff.1 h
  obtain ⟨halo, -, h⟩ := except_bind_eq_ok_iff.1 h
  cases h
  refine ⟨_, rfl, rfl, rfl, ?_, rfl, rfl⟩
  -- A text that is wrapped has its width besides.
  show List.lookup "icon-image" (_ ++ if space = 3 then _ else _) = none
  split <;> rfl

theorem textColour_isOk {arg : Argument} {c : DrawingContext} (h : IsOk (arg.colour c))
    (hdefault : IsOk (c.colour defaultTextColour)) : IsOk ((textColour arg).colour c) := by
  cases arg with
  | choice choice => exact h
  | _ =>
    simp only [textColour]
    split
    · exact hdefault
    · exact h

/-! ## Symbols -/

/-- The fragment of a symbol. -/
def symbolFragment (icon : Icon) (turn : Turn) (arg : Argument) : Fragment where
  kind := .symbol
  layout := [("symbol-placement", .text "point"), ("icon-allow-overlap", .value (.bool true)),
    ("icon-ignore-placement", .value (.bool true)), ("icon-image", icon.image),
    ("icon-offset", icon.offset)] ++ turn.properties arg

/-- The fragment of a line with a repeated symbol. -/
def complexLineFragment (name : String) (entry : SymbolEntry) : Fragment where
  kind := .line
  paint := [("line-pattern", .text name), ("line-width", .value (.real entry.height))]
  layout := [("line-join", .text "round")]

/-- The fragment of a pattern fill. -/
def patternFragment (name : String) (_ : SymbolEntry) : Fragment where
  kind := .fill
  paint := [("fill-pattern", .text name), ("fill-opacity", .value (.real 1)),
    ("fill-translate-anchor", .text "map")]

/-- What is drawn with a symbol of a fixed name, nothing without it. -/
def drawNamed (name : String) (fragment : SymbolEntry → Fragment) (a : AttributeSet)
    (c : DrawingContext) : Report (List Fragment) :=
  match c.registry.find? name with
  | none => do
    Report.diagnose (.missingSymbol (.text name)) a.objectClass
    return []
  | some entry => return [fragment entry]

theorem drawSymbol_eq (call : Call) (a : AttributeSet) (c : DrawingContext) :
    drawSymbol call a c = (do
      match ← iconOf (call.arg 0 .null) a c with
      | none => return []
      | some icon =>
        let turn ← Turn.ofArgument (call.arg 1 (.int 0)) a
        return [symbolFragment icon turn.reduce (call.arg 1 (.int 0))]) := rfl

theorem drawComplexLine_eq (call : Call) (a : AttributeSet) (c : DrawingContext) :
    drawComplexLine call a c =
      drawNamed (call.arg 0 .null).token (complexLineFragment (call.arg 0 .null).token) a c := rfl

theorem drawPattern_eq (call : Call) (a : AttributeSet) (c : DrawingContext) :
    drawPattern call a c =
      drawNamed (call.arg 0 .null).token (patternFragment (call.arg 0 .null).token) a c := rfl

theorem drawNamed_isOk (name : String) (fragment : SymbolEntry → Fragment) (a : AttributeSet)
    (c : DrawingContext) : IsOk (drawNamed name fragment a c).outcome := by
  unfold drawNamed
  cases c.registry.find? name with
  | none => exact .ok _
  | some entry => exact .ok _

section

variable {a : AttributeSet} {c : DrawingContext} {texts : List String}

/-- An empty option is not looked up. -/
theorem registered_of_blank {option : Value} (h : option.isPresent = false)
    (options : List Value) : registered c a (option :: options) = registered c a options := by
  rw [registered, h]
  rfl

theorem registered_of_missing {option : Value} (h : option.isPresent = true)
    (hfound : c.registry.findValue? option = .ok none) (options : List Value) :
    registered c a (option :: options) =
      Report.diagnose (.missingSymbol option) a.objectClass >>= fun _ =>
        registered c a options := by
  rw [registered, h, hfound]
  rfl

theorem registered_of_found {option : Value} {entry : SymbolEntry} (h : option.isPresent = true)
    (hfound : c.registry.findValue? option = .ok (some entry)) (options : List Value) :
    registered c a (option :: options) =
      registered c a options >>= fun rest => pure ((option.plain, entry) :: rest) := by
  rw [registered, h, hfound]
  rfl

/-- All that can become of an option: it is empty, or missing, or its entry is the first. -/
theorem registered_cases {option : Value} {options : List Value}
    {entries : List (String × SymbolEntry)}
    (h : (registered c a (option :: options)).outcome = .ok entries) :
    (option.isPresent = false ∧ (registered c a options).outcome = .ok entries) ∨
      (option.isPresent = true ∧ c.registry.findValue? option = .ok none ∧
        (registered c a options).outcome = .ok entries) ∨
      ∃ entry rest, option.isPresent = true ∧
        c.registry.findValue? option = .ok (some entry) ∧
        (registered c a options).outcome = .ok rest ∧ entries = (option.plain, entry) :: rest := by
  cases hpresent : option.isPresent with
  | false =>
    rw [registered_of_blank hpresent] at h
    exact .inl ⟨rfl, h⟩
  | true =>
    right
    cases hlookup : c.registry.findValue? option with
    | error fault =>
      rw [registered, hpresent, hlookup] at h
      cases h
    | ok found =>
      cases found with
      | none =>
        rw [registered_of_missing hpresent hlookup] at h
        obtain ⟨⟨⟩, -, h⟩ := Report.outcome_bind_eq_ok_iff.1 h
        exact .inl ⟨rfl, rfl, h⟩
      | some entry =>
        rw [registered_of_found hpresent hlookup] at h
        obtain ⟨rest, hrest, h⟩ := Report.outcome_bind_eq_ok_iff.1 h
        cases h
        exact .inr ⟨entry, rest, rfl, rfl, hrest, rfl⟩

theorem registered_isOk {options : List Value} (h : ∀ v ∈ options, IsTextIn texts v) :
    IsOk (registered c a options).outcome := by
  induction options with
  | nil => exact .ok _
  | cons option options ih =>
    obtain ⟨⟨text, -, rfl⟩, hrest⟩ := List.forall_mem_cons.1 h
    unfold registered
    split
    · refine .report_bind (.ok (c.registry.find? text)) fun entry _ => ?_
      cases entry with
      | some entry => exact .report_bind (ih hrest) fun _ _ => .ok _
      | none => exact .report_bind (.ok ()) fun _ _ => ih hrest
    · exact ih hrest

/-- A symbol is picked among any texts. -/
theorem pickedIcon_isOk {choice : Choice} (hchoice : choice.IsPickable)
    (h : ∀ v ∈ choice.options, IsTextIn texts v) : IsOk (pickedIcon choice a c).outcome := by
  -- An option is looked up by its name, so it has an image and an offset whatever is registered.
  have hentry (entries : List (String × SymbolEntry)) {v : Value} (hv : v ∈ choice.options) :
      IsOk (entryOf? entries v) := by
    obtain ⟨text, -, rfl⟩ := h v hv
    exact .ok _
  refine .report_bind (registered_isOk h) fun entries _ => ?_
  split
  · exact .ok _
  · refine .report_bind (.lift (hchoice.expression_isOk fun v hv => ?_)) fun image _ => ?_
    · exact .bind (hentry entries hv) fun _ _ => .ok _
    · refine .report_bind (.lift (hchoice.expression_isOk fun v hv => ?_)) fun offset _ => .ok _
      refine .bind (hentry entries hv) fun entry _ => ?_
      cases entry with
      | none => exact .ok _
      | some entry => exact .ok _

theorem iconOf_isOk {arg : Argument} (h : arg.Offers (IsTextIn texts)) :
    IsOk (iconOf arg a c).outcome := by
  cases arg with
  | literal v =>
    show IsOk (fixedIcon _ a c).outcome
    unfold fixedIcon
    cases c.registry.find? _ with
    | none => exact .ok _
    | some entry => exact .ok _
  | choice choice => exact pickedIcon_isOk (Choice.Offers.isPickable h) h.options
  | _ => exact h.elim

end

/-! ## The instructions -/

section

variable (call : Call) (a : AttributeSet) (c : DrawingContext)

theorem drawLine_isOk_iff : IsOk (drawLine call c) ↔ IsOk (call.arg 1 .null).width ∧
    IsOk ((call.arg 2 .null).colour c) ∧ (call.arg 0 .null).lineStyle?.isSome = true := by
  unfold drawLine
  refine IsOk.bind_and_iff fun width _ => IsOk.bind_and_iff fun colour _ => ?_
  cases (call.arg 0 .null).lineStyle? with
  | none => exact iff_of_false (IsOk.not_error _) Bool.false_ne_true
  | some style =>
    refine iff_of_true ?_ rfl
    cases style <;> exact .ok _

theorem drawFill_isOk_iff : IsOk (drawFill call c) ↔
    IsOk ((call.arg 0 .null).colour c) ∧ ∃ transparency,
      (call.arg 1 (.int 0)).intLiteral 0 = .ok transparency ∧
        (fillOpacity? transparency).isSome = true := by
  unfold drawFill
  rw [IsOk.bind_iff, ← exists_and_left]
  refine exists_congr fun transparency => ?_
  rw [and_left_comm]
  refine and_congr_right fun _ => IsOk.bind_and_iff fun colour _ => ?_
  cases fillOpacity? transparency with
  | none => exact iff_of_false (IsOk.not_error _) Bool.false_ne_true
  | some opacity => exact iff_of_true (.ok _) rfl

theorem drawPattern_isOk : IsOk (drawPattern call a c).outcome := by
  rw [drawPattern_eq]
  exact drawNamed_isOk _ _ a c

theorem drawComplexLine_isOk : IsOk (drawComplexLine call a c).outcome := by
  rw [drawComplexLine_eq]
  exact drawNamed_isOk _ _ a c

variable {call a c}

theorem drawSymbol_isOk (hicon : IsOk (iconOf (call.arg 0 .null) a c).outcome)
    (hturn : IsOk (Turn.ofArgument (call.arg 1 (.int 0)) a).outcome) :
    IsOk (drawSymbol call a c).outcome := by
  refine .report_bind hicon fun icon _ => ?_
  cases icon with
  | none => exact .ok _
  | some icon => exact .report_bind hturn fun _ _ => .ok _

end

/-! ## The calls of procedures -/

namespace Procedure

/-- The tokens of the colours of procedures and texts. -/
def drawnTokens : List String := ownColours ++ [defaultTextColour, haloColour]

variable {a : AttributeSet} {c : DrawingContext} {call : Call}

theorem lineStyle?_isSome {style : String} (h : style ∈ ["SOLD", "DASH", "DOTT"]) :
    (Argument.text style).lineStyle?.isSome = true := by
  have hall : ∀ style ∈ ["SOLD", "DASH", "DOTT"],
      (Argument.text style).lineStyle?.isSome = true := by decide +kernel
  exact hall style h

theorem givesHeight_of_mem {chars : String} (h : chars ∈ ownStyles) : GivesHeight chars.toList := by
  have hall : ∀ chars ∈ ownStyles, GivesHeight chars.toList := by decide +kernel
  exact hall chars h

theorem ownText_isOk {text : Argument} (h : IsOwnText a text) :
    IsOk (textOfArgument text a) := by
  cases text with
  | literal v => exact .ok _
  | computed e => exact .ok _
  | choice choice => exact h.elim
  | _ code =>
    have hunknown : a.known? code = none := h
    rw [textOfArgument, hunknown]
    exact .ok _

/-- The calls of procedures are drawn with any palette that has their colours. -/
theorem IsOwn.draws (h : IsOwn a call) (huniform : c.palette.IsUniform)
    (htokens : ∀ token ∈ drawnTokens, c.palette.has token = true) :
    IsOk (call.drawPlain a c).outcome := by
  have hown {arg : Argument} (harg : arg.Offers (IsTextIn ownColours)) : IsOk (arg.colour c) :=
    arg.colour_isOk huniform (fun token h => htokens token (List.mem_append_left _ h)) harg
  have htoken {token : String} (htoken : token ∈ drawnTokens) : IsOk (c.colour token) :=
    (DrawingContext.colour_isOk_iff huniform token).2 (htokens token htoken)
  cases h with
  | @fill colour hcolour =>
    exact (drawFill_isOk_iff ⟨.ac, [colour]⟩ c).2 ⟨hown hcolour, 0, rfl, by decide +kernel⟩
  | pattern => exact drawPattern_isOk _ a c
  | @line style width colour hstyle hwidth hcolour =>
    exact (drawLine_isOk_iff (lineCall style width colour) c).2
      ⟨Argument.width_isOk hwidth, hown hcolour, lineStyle?_isSome hstyle⟩
  | text htext hchars hcolour =>
    refine .lift (.bind (ownText_isOk htext) fun text _ => ?_)
    cases text with
    | none => exact .ok _
    | some text =>
      refine (textFragment_isOk_iff text _ c).2 ⟨?_, givesHeight_of_mem hchars, ?_, ?_⟩
      · simp [textNumbers, textCall, Argument.isInfinite, Argument.int]
      · exact textColour_isOk (hown hcolour) (htoken (by decide))
      · exact htoken (by decide)
  | symbol hsymbol => exact drawSymbol_isOk (iconOf_isOk hsymbol) (.ok _)
  | flare hsymbol => exact drawSymbol_isOk (iconOf_isOk hsymbol) (.ok _)

theorem drawAllPlain_isOk {calls : List Call}
    (h : ∀ call ∈ calls, IsOk (call.drawPlain a c).outcome) :
    IsOk (Call.drawAllPlain a c calls).outcome := by
  induction calls with
  | nil => exact .ok _
  | cons call calls ih =>
    obtain ⟨hcall, hrest⟩ := List.forall_mem_cons.1 h
    exact .report_bind hcall fun _ _ => .report_bind (ih hrest) fun _ _ => .ok _

/-! ## Without a note -/

theorem registered_events {names : List String}
    (hregistry : ∀ name ∈ names, (c.registry.find? name).isSome = true) {options : List Value}
    (h : ∀ v ∈ options, IsTextIn ("" :: names) v) : (registered c a options).events = [] := by
  induction options with
  | nil => rfl
  | cons option options ih =>
    obtain ⟨⟨text, htext, rfl⟩, hrest⟩ := List.forall_mem_cons.1 h
    unfold registered
    split
    · next hpresent =>
      -- A name that stands for something is one of the registered ones.
      have hmem : text ∈ names := by
        refine (List.mem_cons.1 htext).resolve_left ?_
        rintro rfl
        cases hpresent
      obtain ⟨entry, hentry⟩ := Option.isSome_iff_exists.1 (hregistry text hmem)
      refine Report.events_bind_eq_nil rfl fun found hfound => ?_
      obtain rfl : c.registry.find? text = found := Except.ok.inj hfound
      rw [hentry]
      exact Report.events_bind_eq_nil (ih hrest) fun _ _ => rfl
    · exact ih hrest

/-- Nothing is noted of the icon of a named symbol that a procedure offers. -/
theorem iconOf_events (hregistry : ∀ name ∈ ownSymbols, (c.registry.find? name).isSome = true)
    {arg : Argument} (harg : arg.Offers (IsTextIn ("" :: ownSymbols))) (hnamed : arg ≠ .text "") :
    (iconOf arg a c).events = [] := by
  cases arg with
  | literal v =>
    obtain ⟨text, htext, rfl⟩ := harg
    have hmem : text ∈ ownSymbols := by
      refine (List.mem_cons.1 htext).resolve_left ?_
      rintro rfl
      exact hnamed rfl
    obtain ⟨entry, hentry⟩ := Option.isSome_iff_exists.1 (hregistry text hmem)
    show (fixedIcon text a c).events = []
    unfold fixedIcon
    rw [hentry]
    rfl
  | choice choice =>
    refine Report.events_bind_eq_nil (registered_events hregistry harg.options) fun entries _ => ?_
    split
    · rfl
    · refine Report.events_bind_eq_nil rfl fun image _ => ?_
      exact Report.events_bind_eq_nil rfl fun offset _ => rfl
  | _ => exact harg.elim

theorem drawSymbol_events {arg : Argument} {rest : List Argument}
    (hicon : (iconOf arg a c).events = [])
    (hturn : (Turn.ofArgument (Call.arg ⟨.sy, arg :: rest⟩ 1 (.int 0)) a).events = []) :
    (drawSymbol ⟨.sy, arg :: rest⟩ a c).events = [] := by
  refine Report.events_bind_eq_nil hicon fun icon _ => ?_
  cases icon with
  | none => rfl
  | some icon => exact Report.events_bind_eq_nil hturn fun _ _ => rfl

/-- Where the symbols of procedures are registered, nothing is noted while their calls are drawn. -/
theorem IsOwn.events_eq_nil (h : IsOwn a call)
    (hregistry : ∀ name ∈ ownPattern :: ownSymbols, (c.registry.find? name).isSome = true) :
    (call.drawPlain a c).events = [] := by
  obtain ⟨hpattern, hsymbols⟩ := List.forall_mem_cons.1 hregistry
  cases h with
  | fill | line | text => rfl
  | pattern =>
    obtain ⟨entry, hentry⟩ := Option.isSome_iff_exists.1 hpattern
    show (drawPattern _ a c).events = []
    simp only [drawPattern, Call.arg, List.getD_cons_zero, Argument.text, Argument.token,
      Value.plain, hentry]
    rfl
  | symbol hoffers hnamed =>
    exact drawSymbol_events (iconOf_events hsymbols hoffers hnamed) rfl
  | flare hoffers =>
    have hoffers' := hoffers.mono fun _ hv => isTextIn_cons hv ""
    exact drawSymbol_events (iconOf_events hsymbols hoffers' (ne_unnamed hoffers)) rfl

end Procedure

/-! ## What drawing reads of the attributes -/

section

variable {a b : AttributeSet} (c : DrawingContext)

theorem iconOf_congr (hclass : b.objectClass = a.objectClass) (arg : Argument) :
    iconOf arg b c = iconOf arg a c := by
  have hregistered (options : List Value) : registered c b options = registered c a options := by
    induction options with
    | nil => rfl
    | cons option options ih =>
      unfold registered
      rw [ih, hclass]
  unfold iconOf pickedIcon fixedIcon
  simp only [hregistered, hclass]

theorem turnOfArgument_congr (hclass : b.objectClass = a.objectClass) {arg : Argument}
    (hknown : ∀ code, arg = .attribute code → b.known? code = a.known? code) :
    Turn.ofArgument arg b = Turn.ofArgument arg a := by
  unfold Turn.ofArgument
  split
  · next code =>
    have hcode := hknown code rfl
    simp only [AttributeSet.isKnown_eq, AttributeSet.getReal, AttributeSet.malformed, hcode, hclass]
  · rfl
  · rfl
  · rfl

theorem textOfArgument_congr {arg : Argument}
    (hknown : ∀ code, arg = .attribute code → b.known? code = a.known? code) :
    textOfArgument arg b = textOfArgument arg a := by
  unfold textOfArgument
  split
  · rfl
  · next code => rw [hknown code rfl]
  · rfl
  · rfl

/-- What a call draws that has no template depends on the object class, and on the known values of
the attributes that its arguments name. -/
theorem Call.drawPlain_congr {call : Call} (hclass : b.objectClass = a.objectClass)
    (hcall : call.primitive ≠ .te)
    (hknown : ∀ code, .attribute code ∈ call.args → b.known? code = a.known? code) :
    call.drawPlain b c = call.drawPlain a c := by
  have harg (position : Nat) (default : Value) (code : String)
      (h : call.arg position default = .attribute code) : b.known? code = a.known? code := by
    rw [Call.arg, List.getD_eq_getElem?_getD] at h
    cases hget : call.args[position]? with
    | none =>
      rw [hget] at h
      cases h
    | some arg =>
      rw [hget] at h
      obtain rfl : arg = .attribute code := h
      exact hknown code (List.mem_of_getElem? hget)
  unfold drawPlain
  split
  · simp only [drawSymbol, iconOf_congr c hclass, turnOfArgument_congr hclass (harg 1 (.int 0))]
  · rfl
  · simp only [drawComplexLine, hclass]
  · rfl
  · simp only [drawPattern, hclass]
  · simp only [drawText, textOfArgument_congr (harg 0 .null)]
  · next hte => exact absurd hte hcall
  · rfl

end

end ChartStyle
