import ChartStyle.Drawing.Draw
import ChartStyle.Proofs.ProcedureCalls
import ChartStyle.Proofs.ReadCalls

/-!
# Names are settled when a call is read

A call that was read has a known name, a fitting number of arguments and, where it runs a
procedure, the name of one that exists. So drawing can still fail over a colour or a number, but
never over the name of an instruction or of a procedure (`Call.draw_namesHold`), and reading
settles all of this or refuses the text in the name of its rule (`parseInstructions_settles`).
-/

set_option autoImplicit false

namespace ChartStyle

/-! ## Faults over names -/

/-- The fault lies in a name: no instruction or procedure has it, or a procedure stands where it
cannot, or is missing. -/
def Fault.isOverName : Fault → Bool
  | .configuration (.unknownInstruction _) _ => true
  | .configuration (.unknownProcedure _) _ => true
  | .configuration (.nestedProcedure _) _ => true
  | .data (.unknownMember _ _) => true
  | .data .missingPosition => true
  | _ => false

/-- The operation does not fail over a name. -/
def NamesHold {α : Type} (outcome : Except Fault α) : Prop :=
  ∀ fault, outcome = .error fault → fault.isOverName = false

namespace NamesHold

variable {α β : Type}

theorem ok (a : α) : NamesHold (.ok a) := by
  intro fault h
  cases h

theorem error {fault : Fault} (h : fault.isOverName = false) :
    NamesHold (.error fault : Except Fault α) := by
  rintro _ ⟨⟩
  exact h

theorem bind {x : Except Fault α} {f : α → Except Fault β} (hx : NamesHold x)
    (hf : ∀ a, NamesHold (f a)) : NamesHold (x >>= f) := by
  cases x with
  | error fault =>
    rintro _ ⟨⟩
    exact hx fault rfl
  | ok a => exact hf a

theorem lift {x : Except Fault α} (h : NamesHold x) : NamesHold (liftM x : Report α).outcome := h

/-- Operations that report on the way do not fail over a name when each of them does not. -/
theorem report_bind {x : Report α} {f : α → Report β} (hx : NamesHold x.outcome)
    (hf : ∀ a, NamesHold (f a).outcome) : NamesHold (x >>= f).outcome := by
  cases h : x.outcome with
  | error fault =>
    rw [Report.bind_of_error h]
    exact error (hx fault h)
  | ok a =>
    rw [Report.bind_of_ok h]
    exact hf a

end NamesHold

/-! ## Numbers -/

namespace Value

theorem toDouble_namesHold (v : Value) : NamesHold v.toDouble := by
  unfold toDouble
  repeat' split
  all_goals first | exact .ok _ | exact .error rfl

theorem wholePart_namesHold (x : Double) : NamesHold (wholePart x) := by
  unfold wholePart
  split
  all_goals first | exact .ok _ | exact .error rfl

theorem toInt_namesHold (v : Value) : NamesHold v.toInt := by
  unfold toInt
  repeat' split
  all_goals first | exact .ok _ | exact .error rfl | exact wholePart_namesHold _

theorem comparable_namesHold (v : Value) : NamesHold v.comparable := by
  unfold comparable
  split
  all_goals first | exact .ok _ | exact .error rfl

theorem items_namesHold (v : Value) : NamesHold v.items := by
  unfold items
  split
  all_goals first | exact .ok _ | exact .error rfl

end Value

/-! ## Attributes -/

namespace AttributeSet

variable (a : AttributeSet) (code : String)

theorem getReal_namesHold (standIn : Value) : NamesHold (a.getReal code standIn).outcome := by
  unfold getReal
  repeat' split
  all_goals first | exact .ok _ | exact .error rfl

theorem getInt_namesHold (standIn : Value) : NamesHold (a.getInt code standIn).outcome := by
  unfold getInt
  refine .report_bind (a.getReal_namesHold code .null) fun x => ?_
  repeat' split
  all_goals exact .ok _

theorem getInts_namesHold : NamesHold (a.getInts code).outcome := by
  unfold getInts
  repeat' split
  all_goals first | exact .ok _ | exact .error rfl

end AttributeSet

/-! ## Choices -/

namespace Choice

variable {convert : Value → Except Fault Expr} (hconvert : ∀ v, NamesHold (convert v))

include hconvert

theorem convertStops_namesHold (stops : List (Expr × Value)) :
    NamesHold (convertStops convert stops) := by
  induction stops with
  | nil => exact .ok _
  | cons stop stops ih => exact .bind (hconvert _) fun e => .bind ih fun rest => .ok _

theorem convertLabels_namesHold (stops : List (Expr × Value)) :
    NamesHold (convertLabels convert stops) := by
  induction stops with
  | nil => exact .ok _
  | cons stop stops ih =>
    refine .bind (Value.items_namesHold _) fun labels => ?_
    exact .bind (hconvert _) fun e => .bind ih fun rest => .ok _

theorem expression_namesHold (c : Choice) : NamesHold (c.expression convert) := by
  unfold expression
  cases c.operator with
  | step =>
    exact .bind (hconvert _) fun base => .bind (convertStops_namesHold hconvert _) fun _ => .ok _
  | case =>
    exact .bind (convertStops_namesHold hconvert _) fun _ => .bind (hconvert _) fun _ => .ok _
  | pick =>
    exact .bind (convertLabels_namesHold hconvert _) fun _ => .bind (hconvert _) fun _ => .ok _
  | unknown name => exact .error rfl

end Choice

/-! ## Drawing -/

section

variable (a : AttributeSet) (c : DrawingContext)

theorem DrawingContext.colour_namesHold (token : String) : NamesHold (c.colour token) := by
  refine .bind ?_ fun _ => .ok _
  unfold Palette.resolve
  split
  all_goals first | exact .ok _ | exact .error rfl

theorem DrawingContext.colourOf_namesHold (v : Value) : NamesHold (c.colourOf v) := by
  refine .bind ?_ fun _ => .ok _
  unfold Palette.resolveValue Palette.resolve
  repeat' split
  all_goals first | exact .ok _ | exact .error rfl

namespace Argument

theorem intLiteral_namesHold (arg : Argument) (default : Int) :
    NamesHold (arg.intLiteral default) := by
  unfold intLiteral
  repeat' split
  all_goals first | exact .ok _ | exact .error rfl

theorem colour_namesHold (arg : Argument) : NamesHold (arg.colour c) := by
  unfold colour
  split
  · exact Choice.expression_namesHold c.colourOf_namesHold _
  · exact c.colour_namesHold _

theorem widthOf_namesHold (units : Int) : NamesHold (widthOf units) := by
  unfold widthOf
  split
  all_goals first | exact .ok _ | exact .error rfl

theorem width_namesHold (arg : Argument) : NamesHold arg.width := by
  unfold width
  split
  · refine Choice.expression_namesHold (fun v => ?_) _
    exact .bind v.toInt_namesHold widthOf_namesHold
  · exact .bind (intLiteral_namesHold _ _) widthOf_namesHold

end Argument

theorem drawLine_namesHold (call : Call) : NamesHold (drawLine call c) := by
  refine .bind (Argument.width_namesHold _) fun width => ?_
  refine .bind (Argument.colour_namesHold c _) fun colour => ?_
  repeat' split
  all_goals first | exact .ok _ | exact .error rfl

theorem drawFill_namesHold (call : Call) : NamesHold (drawFill call c) := by
  refine .bind (Argument.intLiteral_namesHold _ _) fun transparency => ?_
  refine .bind (Argument.colour_namesHold c _) fun colour => ?_
  split
  all_goals first | exact .ok _ | exact .error rfl

theorem textFragment_namesHold (text : Expr) (params : List Argument) :
    NamesHold (textFragment text params c) := by
  have hint (arg : Argument) (default : Int) := arg.intLiteral_namesHold default
  have hheight (chars : List Char) : NamesHold (textHeight chars) := by
    unfold textHeight
    dsimp only
    split
    · exact Value.toInt_namesHold _
    · exact .ok _
  -- The parameters are read one after the other.
  refine .bind (hint _ _) fun hjust => .bind (hint _ _) fun vjust => ?_
  refine .bind (hint _ _) fun space => .bind (hheight _) fun height => ?_
  refine .bind (hint _ _) fun x => .bind (hint _ _) fun y => ?_
  refine .bind (.bind (Value.toDouble_namesHold _) fun _ => .ok _) fun size => ?_
  exact .bind (Argument.colour_namesHold c _) fun _ => .bind (c.colour_namesHold _) fun _ => .ok _

theorem drawTextExpr_namesHold (text : Option Expr) (params : List Argument) :
    NamesHold (drawTextExpr text params c) := by
  cases text with
  | none => exact .ok _
  | some text => exact textFragment_namesHold c text params

theorem drawText_namesHold (call : Call) : NamesHold (drawText call a c) := by
  refine .bind ?_ fun text => drawTextExpr_namesHold c text _
  unfold textOfArgument
  repeat' split
  all_goals first | exact .ok _ | exact .error rfl

theorem fill_namesHold (f : Text.Field) (code : String) :
    NamesHold (Template.fill f code a).outcome := by
  have hwritten (x : Double) : NamesHold (Template.written f x) := by
    unfold Template.written
    split
    · dsimp only
      split
      all_goals first | exact .ok _ | exact .error rfl
    · exact .ok _
  unfold Template.fill
  split
  · split
    · exact .ok _
    · refine .report_bind (a.getReal_namesHold code .null) fun x => ?_
      split
      · exact .ok _
      · exact .report_bind (hwritten _) fun _ => .ok _
  · exact .ok _

theorem fillAll_namesHold (pieces : List Text.Piece) (codes : List String) :
    NamesHold (Template.fillAll a pieces codes).outcome := by
  -- The codes are used up by the fields, so the induction is over the pieces and all codes.
  induction pieces generalizing codes with
  | nil => exact .ok _
  | cons piece pieces ih =>
    cases piece with
    | literal s => exact .report_bind (ih codes) fun _ => .ok _
    | field f =>
      cases codes with
      | nil => exact ih []
      | cons code codes =>
        refine .report_bind (fill_namesHold a f code) fun text => ?_
        cases text with
        | none => exact .ok _
        | some e => exact .report_bind (ih codes) fun _ => .ok _

theorem drawFormattedText_namesHold (call : Call) :
    NamesHold (drawFormattedText call a c).outcome := by
  refine .report_bind ?_ fun text => drawTextExpr_namesHold c _ _
  exact .report_bind (fillAll_namesHold a _ _) fun _ => .ok _

theorem registered_namesHold (options : List Value) :
    NamesHold (registered c a options).outcome := by
  induction options with
  | nil => exact .ok _
  | cons option options ih =>
    unfold registered
    split
    · have hfind : NamesHold (c.registry.findValue? option) := by
        unfold Registry.findValue?
        repeat' split
        all_goals first | exact .ok _ | exact .error rfl
      refine .report_bind hfind fun entry => ?_
      cases entry with
      | some entry => exact .report_bind ih fun _ => .ok _
      | none => exact .report_bind (.ok _) fun _ => ih
    · exact ih

theorem pickedIcon_namesHold (choice : Choice) : NamesHold (pickedIcon choice a c).outcome := by
  have hentry (entries : List (String × SymbolEntry)) (option : Value) :
      NamesHold (entryOf? entries option) := by
    unfold entryOf?
    repeat' split
    all_goals first | exact .ok _ | exact .error rfl
  refine .report_bind (registered_namesHold a c _) fun entries => ?_
  split
  · exact .ok _
  · refine .report_bind ?_ fun image => .report_bind ?_ fun offset => .ok _
    · apply NamesHold.lift
      exact Choice.expression_namesHold (fun v => .bind (hentry entries v) fun _ => .ok _) _
    · apply NamesHold.lift
      refine Choice.expression_namesHold (fun v => .bind (hentry entries v) fun entry => ?_) _
      cases entry with
      | some entry => exact .ok _
      | none => exact .ok _

theorem iconOf_namesHold (arg : Argument) : NamesHold (iconOf arg a c).outcome := by
  unfold iconOf
  split
  · exact pickedIcon_namesHold a c _
  · unfold fixedIcon
    split
    all_goals exact .ok _

theorem turnOfArgument_namesHold (arg : Argument) : NamesHold (Turn.ofArgument arg a).outcome := by
  unfold Turn.ofArgument
  split
  · split
    · exact .report_bind (a.getReal_namesHold _ _) fun _ => .ok _
    · exact .ok _
  · exact .ok _
  · exact .ok _
  · exact .error rfl

theorem drawSymbol_namesHold (call : Call) : NamesHold (drawSymbol call a c).outcome := by
  refine .report_bind (iconOf_namesHold a c _) fun icon => ?_
  cases icon with
  | none => exact .ok _
  | some icon => exact .report_bind (turnOfArgument_namesHold a _) fun _ => .ok _

/-- No call that runs no procedure fails over a name. -/
theorem drawPlain_namesHold {call : Call} (hcall : call.primitive ≠ .cs) :
    NamesHold (call.drawPlain a c).outcome := by
  unfold Call.drawPlain
  split
  · exact drawSymbol_namesHold a c call
  · exact drawLine_namesHold c call
  · unfold drawComplexLine
    dsimp only
    split
    all_goals exact .ok _
  · exact drawFill_namesHold c call
  · unfold drawPattern
    dsimp only
    split
    all_goals exact .ok _
  · exact drawText_namesHold a c call
  · exact drawFormattedText_namesHold a c call
  · next hcs => exact absurd hcs hcall

theorem drawAllPlain_namesHold {calls : List Call} (hcalls : ∀ call ∈ calls, call.primitive ≠ .cs) :
    NamesHold (Call.drawAllPlain a c calls).outcome := by
  induction calls with
  | nil => exact .ok _
  | cons call calls ih =>
    obtain ⟨hcall, hrest⟩ := List.forall_mem_cons.1 hcalls
    exact .report_bind (drawPlain_namesHold a c hcall) fun _ =>
      .report_bind (ih hrest) fun _ => .ok _

end

/-! ## Procedures -/

section

variable (a : AttributeSet) (s : Settings) (t : TableSet)

theorem shallowerThan_namesHold (depth : Number) (threshold : Value) :
    NamesHold (shallowerThan depth threshold) :=
  .bind (Value.comparable_namesHold _) fun _ => .ok _

theorem depthBand_namesHold (depth : Number) : NamesHold (depthBand depth s) := by
  unfold depthBand
  split
  · exact .ok _
  · refine .bind (shallowerThan_namesHold _ _) fun shallow => ?_
    split
    · exact .ok _
    · refine .bind (shallowerThan_namesHold _ _) fun safe => ?_
      split
      · exact .ok _
      · refine .bind (shallowerThan_namesHold _ _) fun deep => ?_
        split
        all_goals exact .ok _

theorem depthChoice_namesHold (code : String) (fallback : Value) (colours : DepthBand → String) :
    NamesHold (depthChoice code fallback s colours) := by
  have hcolour (x : Double) :
      NamesHold (do return colours (← depthBand (.real x) s) : Except Fault String) :=
    .bind (depthBand_namesHold s _) fun _ => .ok _
  have hstops (previous : String) (breaks : List Double) :
      NamesHold (colourStops (fun x => do return colours (← depthBand (.real x) s)) previous
        breaks) := by
    induction breaks generalizing previous with
    | nil => exact .ok _
    | cons x breaks ih => exact .bind (hcolour x) fun token => .bind (ih token) fun _ => .ok _
  have hbreaks : NamesHold (depthBreaks s) := by
    refine .bind (Value.toDouble_namesHold _) fun _ => ?_
    exact .bind (Value.toDouble_namesHold _) fun _ =>
      .bind (Value.toDouble_namesHold _) fun _ => .ok _
  exact .bind hbreaks fun breaks => .bind (hcolour _) fun _ => .bind (hstops _ _) fun _ => .ok _

namespace Procedure

theorem depth?_namesHold (code : String) (standIn : Double) :
    NamesHold (depth? a code standIn).outcome := by
  unfold depth?
  split
  · exact .report_bind (a.getReal_namesHold _ _) fun _ => .ok _
  · exact .ok _

theorem lightDescription_namesHold : NamesHold (lightDescription a).outcome := by
  refine .report_bind (a.getInt_namesHold _ _) fun _ => .report_bind (a.getInts_namesHold _) ?_
  intro colours
  refine .report_bind (a.getReal_namesHold _ _) fun _ => ?_
  exact .report_bind (a.getReal_namesHold _ _) fun _ =>
    .report_bind (a.getReal_namesHold _ _) fun _ => .ok _

theorem light_namesHold : NamesHold (light a).outcome := by
  have hsymbol : NamesHold (flareArgument a).outcome := by
    unfold flareArgument
    split
    · exact .ok _
    · exact .report_bind (a.getInts_namesHold _) fun _ => .ok _
  have hturn : NamesHold (flareTurn a).outcome := by
    refine .report_bind (a.getReal_namesHold _ _) fun _ => ?_
    refine .report_bind (a.getReal_namesHold _ _) fun _ => ?_
    split
    all_goals exact .ok _
  have hdescription : NamesHold (descriptionArgument? a).outcome := by
    unfold descriptionArgument?
    split
    · exact .ok _
    · exact .report_bind (lightDescription_namesHold a) fun _ => .ok _
  refine .report_bind hsymbol fun symbol => .report_bind hturn fun turn => ?_
  refine .report_bind hdescription fun description => ?_
  cases description with
  | some description => exact .ok _
  | none => exact .ok _

theorem danger_namesHold : NamesHold (danger a s).outcome := by
  unfold danger
  split
  · exact .ok _
  · refine .report_bind (depth?_namesHold a _ _) fun depth => ?_
    cases depth with
    | some depth => exact .report_bind (shallowerThan_namesHold _ _) fun _ => .ok _
    | none => exact .ok _

/-- No procedure fails over a name. -/
theorem evaluate_namesHold (p : Procedure) : NamesHold (p.evaluate a s t).outcome := by
  cases p with
  | depare01 =>
    have hcolour : NamesHold (areaColour a s).outcome := by
      unfold areaColour
      split
      · exact .report_bind (depthChoice_namesHold s _ _ _) fun _ => .ok _
      · refine .report_bind (depth?_namesHold a _ _) fun _ => ?_
        exact .report_bind (depthBand_namesHold s _) fun _ => .ok _
    refine .report_bind hcolour fun colour => ?_
    split
    all_goals exact .ok _
  | depcnt02 =>
    refine .report_bind (depth?_namesHold a _ _) fun depth => ?_
    refine .report_bind (a.getInt_namesHold _ _) fun quality => ?_
    repeat' split
    all_goals exact .ok _
  | lights05 => exact light_namesHold a
  | obstrn04 => exact .report_bind (danger_namesHold a s) fun _ => .ok _
  | soundg02 =>
    refine .report_bind (depth?_namesHold a _ _) fun depth => ?_
    cases depth with
    | some depth => exact .report_bind (depthBand_namesHold s _) fun _ => .ok _
    | none => exact .report_bind (depthChoice_namesHold s _ _ _) fun _ => .ok _
  | wrecks02 =>
    have hsymbol : NamesHold (wreckSymbol a).outcome := by
      unfold wreckSymbol
      split
      · exact .ok _
      · exact .report_bind (a.getInt_namesHold _ _) fun _ => .ok _
    exact .report_bind hsymbol fun _ => .report_bind (danger_namesHold a s) fun _ => .ok _

end Procedure

end

/-! ## Calls that were read -/

namespace Call

/-- The call is complete: a fitting number of arguments as instruction strings have them, and a
procedure that exists where it runs one. -/
structure IsSettled (call : Call) : Prop where
  few : call.primitive.arity.1 ≤ call.args.length
  many : call.args.length ≤ call.primitive.arity.2
  written : ∀ a ∈ call.args, a.IsWritten
  procedure : call.primitive = .cs → ∃ a p, call.args = [a] ∧
    call.procedure? = .ok (some p) ∧ Procedure.parse (.text a.token) = .ok p

theorem IsRead.isSettled {call : Call} {letters body : List Char} (h : call.IsRead letters body) :
    call.IsSettled := by
  obtain ⟨hfew, hmany, hprocedure⟩ := h.admissible
  refine ⟨hfew, hmany, Argument.isWritten_of_parseAll h.args, fun hcs => ?_⟩
  rw [hcs] at hfew hmany
  -- A call of a procedure has one argument, which is the name.
  obtain ⟨a, ha⟩ := List.length_eq_one_iff.1 (Nat.le_antisymm hmany hfew)
  obtain ⟨p, hp⟩ := Option.isSome_iff_exists.1 (hprocedure hcs a (by rw [ha]; rfl))
  refine ⟨a, p, ha, ?_, ?_⟩
  · simp only [procedure?, hcs, ha, hp]
  · simp only [Procedure.parse, hp]

/-- A call that is complete does not fail over a name. -/
theorem IsSettled.draw_namesHold {call : Call} (h : call.IsSettled) (a : AttributeSet)
    (c : DrawingContext) : NamesHold (call.draw a c).outcome := by
  by_cases hcs : call.primitive = .cs
  · obtain ⟨name, p, -, hp, -⟩ := h.procedure hcs
    rw [draw_of_procedure a c hp]
    cases hcalls : (p.evaluate a c.settings c.tableSet).outcome with
    | error fault =>
      rw [Report.bind_of_error hcalls]
      exact .error (Procedure.evaluate_namesHold a _ _ p fault hcalls)
    | ok calls =>
      -- The calls of the procedure run no procedure themselves.
      rw [Report.bind_of_ok hcalls]
      have hown := p.evaluate_gives_own a c.settings c.tableSet calls hcalls
      exact drawAllPlain_namesHold a c fun call hcall => (hown call hcall).primitive_ne_cs
  · rw [draw_of_plain a c hcs]
    exact drawPlain_namesHold a c hcs

end Call

/-- Reading an instruction string, or none, refuses it with a problem in the name of its rule, or
gives complete calls. So nothing that a rule of a record draws fails over the name of an instruction
or of a procedure. -/
theorem parseInstructions_settles :
    (∀ (text : Option String) (rule : Option String),
      (∃ problem, parseInstructions (text.getD "") rule = .error (.configuration problem rule)) ∨
        ∃ calls, parseInstructions (text.getD "") rule = .ok calls ∧
          ∀ call ∈ calls, call.IsSettled) ∧
      ∀ (record : Value) (index : Int) (r : LookupRule),
        LookupRule.ofRecord record index = .ok r → ∀ call ∈ r.calls,
          (∀ a c, NamesHold (call.draw a c).outcome) ∧
            ∀ p, call.procedure? = .ok (some p) →
              ∀ a s t, NamesHold (p.evaluate a s t).outcome := by
  have hsettled {text : String} {rule : Option String} {calls : List Call}
      (h : parseInstructions text rule = .ok calls) : ∀ call ∈ calls, call.IsSettled := by
    intro call hcall
    obtain ⟨letters, body, hread⟩ := isRead_of_parseInstructions h hcall
    exact hread.isSettled
  constructor
  · intro text rule
    cases h : parseInstructions (text.getD "") rule with
    | error fault =>
      obtain ⟨problem, rfl⟩ := parseInstructions_eq_error h
      exact .inl ⟨problem, rfl⟩
    | ok calls => exact .inr ⟨calls, rfl, hsettled h⟩
  · intro record index r hr call hcall
    obtain ⟨label, hcalls⟩ := LookupRule.parseInstructions_of_ofRecord hr
    refine ⟨fun a c => (hsettled hcalls call hcall).draw_namesHold a c, ?_⟩
    exact fun p _ a s t => p.evaluate_namesHold a s t

/-- The record of a rule for wrecks that are drawn as areas. -/
def wreckRecord : Value :=
  .ofFields [("object_class", .text "WRECKS"), ("table_set", .text "AREAS"),
    ("instruction", .text "cs(WRECKS02);TX(OBJNAM)"), ("priority", .int 4)]

/-- The rule of the record. -/
def wreckRule : LookupRule where
  objectClass := "WRECKS"
  tableSet := .areas
  constraints := []
  instruction := "cs(WRECKS02);TX(OBJNAM)"
  priority := 4
  category := .standard
  viewingGroup := 0
  index := 0
  calls := [⟨.cs, [.text "WRECKS02"]⟩, ⟨.tx, [.attribute "OBJNAM"]⟩]

set_option maxRecDepth 10000 in
/-- The procedure of the rule is known, whatever it is to be drawn for. -/
theorem parseInstructions_settles_wreckRecord :
    LookupRule.ofRecord wreckRecord 0 = .ok wreckRule ∧
      ∀ a c, NamesHold (Call.draw ⟨.cs, [.text "WRECKS02"]⟩ a c).outcome := by
  have hread : LookupRule.ofRecord wreckRecord 0 = .ok wreckRule := by with_unfolding_all rfl
  obtain ⟨hdraw, -⟩ :=
    parseInstructions_settles.2 wreckRecord 0 wreckRule hread _ List.mem_cons_self
  exact ⟨hread, hdraw⟩

end ChartStyle
