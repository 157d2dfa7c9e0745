import ChartStyle.Proofs.UnusableValues

/-!
# Symbols that are looked up

Symbols, complex lines and patterns look their names up in the registry, each option of a choice by
itself. A build notes one missing symbol for each name that it looks up and that the registry lacks,
with the object class of the feature, in the order of drawing (`build_missing`). Reading attributes
gives diagnostics too, but never of this kind.
-/

set_option autoImplicit false

namespace ChartStyle

/-! ## Missing symbols -/

/-- The diagnostics of a report that are about missing symbols. -/
def Report.missing {α : Type} (r : Report α) : List Diagnostic :=
  r.diagnostics.filter fun d => d.kind == .missingAsset

namespace Registry

/-- The value is a name that the registry does not have. -/
def lacks (r : Registry) (v : Value) : Bool :=
  match r.findValue? v with
  | .ok none => true
  | _ => false

/-- The diagnostics for those names that the registry does not have. -/
def missing (r : Registry) (names : List Value) (objectClass : String) : List Diagnostic :=
  (names.filter r.lacks).map fun name => ⟨.missingSymbol name, some objectClass⟩

theorem missing_append (r : Registry) (names names' : List Value) (objectClass : String) :
    r.missing (names ++ names') objectClass =
      r.missing names objectClass ++ r.missing names' objectClass := by
  unfold missing
  rw [List.filter_append, List.map_append]

theorem missing_singleton (r : Registry) (name objectClass : String) :
    r.missing [.text name] objectClass =
      match r.find? name with
      | none => [⟨.missingSymbol (.text name), some objectClass⟩]
      | some _ => [] := by
  cases h : r.find? name <;> simp [missing, lacks, findValue?, h]

end Registry

/-- The names of symbols that an argument gives: one, or the options that are not empty. -/
def Argument.symbols : Argument → List Value
  | .choice c => c.options.filter Value.isPresent
  | arg => [.text arg.token]

namespace Call

/-- The names that a call looks up that runs no procedure. -/
def symbols (call : Call) : List Value :=
  match call.primitive with
  | .sy => (call.arg 0 .null).symbols
  | .lc | .ap => [.text (call.arg 0 .null).token]
  | _ => []

/-- The calls that are drawn for a call: those of its procedure, or the call itself. -/
def expanded (call : Call) (a : AttributeSet) (s : Settings) (t : TableSet) : List Call :=
  match call.procedure? with
  | .ok (some procedure) =>
    match (procedure.evaluate a s t).outcome with
    | .ok calls => calls
    | .error _ => []
  | _ => [call]

end Call

namespace Presentation

/-- The names that a build looks up for a feature. -/
def symbolsFor (p : Presentation) (s : Settings) (f : Feature) : List Value :=
  (p.callsFor f).flatMap fun call =>
    (call.expanded f.attributeSet s f.tableSet).flatMap Call.symbols

/-- The diagnostics for the names that a build looks up for a feature in vain. -/
def missingFor (p : Presentation) (s : Settings) (f : Feature) : List Diagnostic :=
  p.registry.missing (p.symbolsFor s f) f.objectClass

end Presentation

/-! ## One operation after the other -/

namespace Report

variable {α β : Type} {x : Report α} {f : α → Report β}

theorem missing_bind_of_ok {value : α} (h : x.outcome = .ok value) :
    (x >>= f).missing = x.missing ++ (f value).missing := by
  rw [bind_of_ok h, missing, diagnostics, Presentation.diagnosticsOf_append, List.filter_append]
  rfl

/-- What notes no missing symbol adds none. -/
theorem missing_bind_eq_left (hf : ∀ value, (f value).missing = []) :
    (x >>= f).missing = x.missing := by
  cases h : x.outcome with
  | error fault =>
    rw [bind_of_error h]
    rfl
  | ok value => rw [missing_bind_of_ok h, hf, List.append_nil]

theorem missing_bind_eq_nil (hx : x.missing = []) (hf : ∀ value, (f value).missing = []) :
    (x >>= f).missing = [] :=
  (missing_bind_eq_left hf).trans hx

theorem missing_append {xs ys : Report (List α)} (hxs : IsOk xs.outcome) (hys : IsOk ys.outcome) :
    (xs >>= fun before => ys >>= fun after => pure (before ++ after)).missing =
      xs.missing ++ ys.missing := by
  unfold missing diagnostics
  rw [events_append hxs hys, Presentation.diagnosticsOf_append, List.filter_append]

end Report

/-! ## Reading attributes -/

section

variable (a : AttributeSet)

theorem getReal_missing (code : String) (standIn : Value) : (a.getReal code standIn).missing = [] := by
  rw [AttributeSet.getReal_eq]
  cases a.known? code with
  | none => rfl
  | some v => cases hv : v.asReal <;> simp only [hv] <;> rfl

theorem Turn.ofArgument_missing (arg : Argument) : (Turn.ofArgument arg a).missing = [] := by
  cases arg with
  | «attribute» code =>
    show (if a.isKnown code then _ else _ : Report Turn).missing = []
    split
    · refine Report.missing_bind_eq_nil (getReal_missing a code _) fun x => ?_
      rfl
    · rfl
  | literal | computed | choice => rfl

namespace Template

theorem fill_missing (f : Text.Field) (code : String) : (fill f code a).missing = [] := by
  unfold fill
  split
  · split
    · rfl
    · refine Report.missing_bind_eq_nil (getReal_missing a code _) fun x => ?_
      cases x with
      | none => rfl
      | some x => exact Report.missing_bind_eq_nil rfl fun text => rfl
  · rfl

theorem fillAll_missing (pieces : List Text.Piece) (codes : List String) :
    (fillAll a pieces codes).missing = [] := by
  induction pieces generalizing codes with
  | nil => rfl
  | cons piece pieces ih =>
    cases piece with
    | literal s => exact Report.missing_bind_eq_nil (ih codes) fun es => rfl
    | field f =>
      cases codes with
      | nil => exact ih []
      | cons code codes =>
        refine Report.missing_bind_eq_nil (fill_missing a f code) fun e => ?_
        cases e with
        | none => rfl
        | some e => exact Report.missing_bind_eq_nil (ih codes) fun es => rfl

end Template

theorem drawFormattedText_missing (call : Call) (c : DrawingContext) :
    (drawFormattedText call a c).missing = [] := by
  refine Report.missing_bind_eq_nil ?_ fun text => rfl
  exact Report.missing_bind_eq_nil (Template.fillAll_missing a _ _) fun es => rfl

/-- A procedure that gives calls has noted what it cannot use, no more. -/
theorem Procedure.evaluate_missing {p : Procedure} {s : Settings} {t : TableSet} {calls : List Call}
    (hs : s.IsNumeric) (h : (p.evaluate a s t).outcome = .ok calls) :
    (p.evaluate a s t).missing = [] := by
  -- Where a choice by depth is made, thresholds beyond the range would have stopped it.
  have hrange : p.PicksByDepth a → s.InRange := by
    intro hpicks
    apply Classical.byContradiction
    intro hrange
    exact evaluate_fails hs hpicks hrange ⟨calls, h⟩
  have hmends := p.evaluate_mends (t := t) hs hrange
  have hevents := (hmends.heeds (hmends.isOk_iff.1 ⟨calls, h⟩)).2
  rw [Report.missing, Report.diagnostics, hevents, Presentation.diagnosticsOf_map_diagnostic,
    List.filter_eq_nil_iff]
  intro d hd
  -- Each diagnostic is about a value that one of the readings cannot use.
  obtain ⟨r, -, hr⟩ := List.mem_filterMap.1 hd
  obtain ⟨v, -, hv⟩ := Option.bind_eq_some_iff.1 hr
  cases hverdict : r.verdict v with
  | unusable =>
    rw [hverdict] at hv
    cases hv
    exact Bool.false_ne_true
  | usable | beyond =>
    rw [hverdict] at hv
    cases hv

end

/-! ## Drawing -/

section

variable {a : AttributeSet} {c : DrawingContext}

theorem registered_missing {options : List Value} (h : IsOk (registered c a options).outcome) :
    (registered c a options).missing =
      c.registry.missing (options.filter Value.isPresent) a.objectClass := by
  induction options with
  | nil => rfl
  | cons option options ih =>
    obtain ⟨entries, h⟩ := h
    obtain ⟨hblank, hrest⟩ | ⟨hpresent, hnone, hrest⟩ | ⟨entry, rest, hpresent, hsome, hrest, -⟩ :=
      registered_cases h
    · rw [registered_of_blank hblank, List.filter_cons_of_neg (by simp [hblank])]
      exact ih ⟨entries, hrest⟩
    · have hlacks : c.registry.lacks option = true := by simp only [Registry.lacks, hnone]
      have hhead : c.registry.missing [option] a.objectClass =
          [⟨.missingSymbol option, some a.objectClass⟩] := by
        simp [Registry.missing, hlacks]
      rw [registered_of_missing hpresent hnone, List.filter_cons_of_pos hpresent,
        ← List.singleton_append, Registry.missing_append, hhead, ← ih ⟨entries, hrest⟩]
      exact Report.missing_bind_of_ok rfl
    · have hlacks : c.registry.lacks option = false := by simp only [Registry.lacks, hsome]
      have hhead : c.registry.missing [option] a.objectClass = [] := by
        simp [Registry.missing, hlacks]
      rw [registered_of_found hpresent hsome, List.filter_cons_of_pos hpresent,
        ← List.singleton_append, Registry.missing_append, hhead, ← ih ⟨rest, hrest⟩]
      exact Report.missing_bind_eq_left fun rest => rfl

theorem fixedIcon_missing (name : String) :
    (fixedIcon name a c).missing = c.registry.missing [.text name] a.objectClass := by
  rw [Registry.missing_singleton]
  unfold fixedIcon
  cases c.registry.find? name <;> rfl

theorem iconOf_missing {arg : Argument} (h : IsOk (iconOf arg a c).outcome) :
    (iconOf arg a c).missing = c.registry.missing arg.symbols a.objectClass := by
  cases arg with
  | choice choice =>
    obtain ⟨icon, h⟩ := h
    obtain ⟨entries, hentries, -⟩ := Report.outcome_bind_eq_ok_iff.1 h
    rw [Argument.symbols, ← registered_missing ⟨entries, hentries⟩]
    refine Report.missing_bind_eq_left fun entries => ?_
    split
    · rfl
    · refine Report.missing_bind_eq_nil rfl fun image => ?_
      exact Report.missing_bind_eq_nil rfl fun offset => rfl
  | literal v => exact fixedIcon_missing _
  | «attribute» code => exact fixedIcon_missing _
  | computed e => exact fixedIcon_missing _

theorem drawSymbol_missing {call : Call} (h : IsOk (drawSymbol call a c).outcome) :
    (drawSymbol call a c).missing =
      c.registry.missing (call.arg 0 .null).symbols a.objectClass := by
  obtain ⟨fragments, h⟩ := h
  obtain ⟨icon, hicon, -⟩ := Report.outcome_bind_eq_ok_iff.1 h
  rw [← iconOf_missing ⟨icon, hicon⟩]
  refine Report.missing_bind_eq_left fun icon => ?_
  cases icon with
  | none => rfl
  | some icon => exact Report.missing_bind_eq_nil (Turn.ofArgument_missing a _) fun turn => rfl

theorem drawNamed_missing (name : String) (fragment : SymbolEntry → Fragment) :
    (drawNamed name fragment a c).missing = c.registry.missing [.text name] a.objectClass := by
  rw [Registry.missing_singleton]
  unfold drawNamed
  cases c.registry.find? name <;> rfl

namespace Call

/-- A call that runs no procedure looks up the names of its symbols. -/
theorem drawPlain_missing {call : Call} (h : IsOk (call.drawPlain a c).outcome) :
    (call.drawPlain a c).missing = c.registry.missing call.symbols a.objectClass := by
  unfold drawPlain at h ⊢
  unfold symbols
  cases hprimitive : call.primitive with
  | sy =>
    rw [hprimitive] at h
    exact drawSymbol_missing h
  | lc =>
    dsimp only
    rw [drawComplexLine_eq]
    exact drawNamed_missing _ _
  | ap =>
    dsimp only
    rw [drawPattern_eq]
    exact drawNamed_missing _ _
  | te => exact drawFormattedText_missing a call c
  | ls | ac | tx | cs => rfl

theorem drawAllPlain_missing {calls : List Call} (h : IsOk (drawAllPlain a c calls).outcome) :
    (drawAllPlain a c calls).missing =
      c.registry.missing (calls.flatMap symbols) a.objectClass := by
  induction calls with
  | nil => rfl
  | cons call calls ih =>
    obtain ⟨hcall, hcalls⟩ := isOk_append_iff.1 h
    rw [List.flatMap_cons, Registry.missing_append, ← drawPlain_missing hcall, ← ih hcalls]
    exact Report.missing_append hcall hcalls

/-- A call looks up the names of the symbols that are drawn for it. -/
theorem draw_missing {call : Call} (hs : c.settings.IsNumeric) (h : IsOk (call.draw a c).outcome) :
    (call.draw a c).missing = c.registry.missing
      ((call.expanded a c.settings c.tableSet).flatMap symbols) a.objectClass := by
  obtain ⟨fragments, h⟩ := h
  obtain ⟨procedure?, hprocedure, h⟩ := Report.outcome_bind_eq_ok_iff.1 h
  have hname : call.procedure? = .ok procedure? := hprocedure
  unfold draw expanded
  rw [Procedure.lift_bind_of_ok hname, hname]
  cases procedure? with
  | none =>
    dsimp only
    rw [List.flatMap_singleton]
    exact drawPlain_missing ⟨fragments, h⟩
  | some procedure =>
    obtain ⟨calls, hcalls, h⟩ := Report.outcome_bind_eq_ok_iff.1 h
    dsimp only
    rw [hcalls, Report.missing_bind_of_ok hcalls, procedure.evaluate_missing a hs hcalls]
    exact drawAllPlain_missing ⟨fragments, h⟩

theorem drawAll_missing {calls : List Call} (hs : c.settings.IsNumeric)
    (h : IsOk (drawAll a c calls).outcome) :
    (drawAll a c calls).missing = c.registry.missing
      (calls.flatMap fun call => (call.expanded a c.settings c.tableSet).flatMap symbols)
      a.objectClass := by
  induction calls with
  | nil => rfl
  | cons call calls ih =>
    obtain ⟨hcall, hcalls⟩ := isOk_append_iff.1 h
    rw [List.flatMap_cons, Registry.missing_append, ← draw_missing hs hcall, ← ih hcalls]
    exact Report.missing_append hcall hcalls

end Call

end

/-! ## Builds -/

namespace Presentation

variable {p : Presentation} {s : Settings}

theorem compileFeature_missing (hs : s.IsNumeric) {index : Nat} {f : Feature}
    (h : IsOk (p.compileFeature s index f).outcome) :
    (p.compileFeature s index f).missing = p.missingFor s f := by
  obtain ⟨layers, hlayers⟩ := exists_compileFeature_eq p s index f
  obtain ⟨ranked, h⟩ := h
  rw [hlayers] at h ⊢
  obtain ⟨fragments, hfragments, -⟩ := Report.outcome_bind_eq_ok_iff.1 h
  refine (Report.missing_bind_eq_left fun fragments => rfl).trans ?_
  exact Call.drawAll_missing (c := p.context s f.tableSet) hs ⟨fragments, hfragments⟩

theorem compileAll_missing (hs : s.IsNumeric) {features : List (Feature × Nat)}
    (h : IsOk (p.compileAll s features).outcome) :
    (p.compileAll s features).missing = features.flatMap fun entry => p.missingFor s entry.1 := by
  induction features with
  | nil => rfl
  | cons entry features ih =>
    obtain ⟨f, index⟩ := entry
    obtain ⟨hown, hrest⟩ := isOk_append_iff.1 h
    rw [List.flatMap_cons, ← compileFeature_missing hs hown, ← ih hrest]
    exact Report.missing_append hown hrest

/-- A build notes each symbol that it looks up in vain, once for each time, with the object class of
the feature. -/
theorem build_missing {catalog : Option Catalog} (h : IsOk (p.build s catalog).outcome) :
    (p.build s catalog).missing =
      (arranged (catalog.getD (Catalog.ofTable p.table))).flatMap fun entry =>
        p.missingFor s entry.1 := by
  obtain ⟨layers, hlayers⟩ := exists_build_eq p s catalog
  obtain ⟨built, h⟩ := h
  rw [hlayers] at h ⊢
  obtain ⟨⟨⟩, hvalid, h⟩ := Report.outcome_bind_eq_ok_iff.1 h
  obtain ⟨ranked, hranked, -⟩ := Report.outcome_bind_eq_ok_iff.1 h
  have hchecked : s.validate.missing = [] := by
    rw [Report.missing, diagnostics_validate]
    rfl
  rw [Report.missing_bind_of_ok hvalid, hchecked, List.nil_append]
  refine (Report.missing_bind_eq_left fun ranked => rfl).trans ?_
  exact compileAll_missing (Settings.isNumeric_of_validate hvalid) ⟨ranked, hranked⟩

end Presentation

end ChartStyle
