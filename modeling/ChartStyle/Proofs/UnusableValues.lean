import ChartStyle.Proofs.CallReadings
import ChartStyle.Proofs.LayerOrder

/-!
# Values that cannot be used

With the bundled tables a build fails over an attribute only if a value that is read, or a threshold
that the renderer is to pick by, lies beyond the range of the doubles. Otherwise it notes each value
that it cannot use, in the order of drawing, and draws what it draws for the mended attributes
(`Bundled.build_heeds`).
-/

set_option autoImplicit false

namespace ChartStyle

/-! ## Values in range -/

namespace Verdict

variable {α β : Type}

/-- The value lies beyond the range. -/
def isBeyond : Verdict α → Bool
  | .beyond _ => true
  | _ => false

theorem isBeyond_andThen {v : Verdict α} {f : α → Verdict β} (hv : v.isBeyond = false)
    (hf : ∀ x, (f x).isBeyond = false) : (v.andThen f).isBeyond = false := by
  cases v with
  | usable x => exact hf x
  | unusable => rfl
  | beyond fault => cases hv

theorem isBeyond_all {item : β → Verdict α} {vs : List β}
    (h : ∀ v ∈ vs, (item v).isBeyond = false) : (all item vs).isBeyond = false := by
  induction vs with
  | nil => rfl
  | cons v vs ih =>
    obtain ⟨hv, hvs⟩ := List.forall_mem_cons.1 h
    exact isBeyond_andThen hv fun _ => isBeyond_andThen (ih hvs) fun _ => rfl

end Verdict

namespace Value

/-- The value is no whole number beyond the range of the doubles. -/
def IsBounded (v : Value) : Prop := ∀ n, v = .int n → (Double.ofInt? n).isSome = true

/-- The value is bounded, and as a list it has bounded items none of which is infinite. -/
structure InRange (v : Value) : Prop where
  bounded : v.IsBounded
  items : ∀ item ∈ AttributeSet.listItems v,
    item.IsBounded ∧ ∀ negative, item.toDouble ≠ .ok (.infinite negative)

theorem IsBounded.asReal {v : Value} (h : v.IsBounded) : v.asReal.isBeyond = false := by
  cases v with
  | int n =>
    obtain ⟨x, hx⟩ := Option.isSome_iff_exists.1 (h n rfl)
    simp only [Value.asReal, hx]
    rfl
  | _ =>
    unfold Value.asReal
    dsimp only
    repeat' split
    all_goals rfl

theorem IsBounded.asItem {item : Value} (h : item.IsBounded)
    (hfinite : ∀ negative, item.toDouble ≠ .ok (.infinite negative)) :
    item.asItem.isBeyond = false := by
  unfold Value.asItem
  split
  · next negative hinfinite => exact absurd hinfinite (hfinite negative)
  · exact Verdict.isBeyond_andThen h.asReal fun _ => rfl

/-- What lies in range does not exceed it, however it is read. -/
theorem InRange.verdict {v : Value} (h : v.InRange) (r : Reading) :
    (r.verdict v).isBeyond = false := by
  unfold Reading.verdict
  split
  · exact Verdict.isBeyond_andThen h.bounded.asReal fun _ => rfl
  · refine Verdict.isBeyond_andThen ?_ fun _ => rfl
    refine Verdict.isBeyond_andThen h.bounded.asReal fun x => ?_
    split <;> rfl
  · refine Verdict.isBeyond_andThen (Verdict.isBeyond_all fun item hitem => ?_) fun _ => rfl
    exact (h.items item hitem).1.asItem (h.items item hitem).2

end Value

theorem AttributeSet.not_exceeds_of_inRange {a : AttributeSet}
    (h : ∀ code v, a.known? code = some v → v.InRange) (r : Reading) : ¬ a.Exceeds r := by
  rintro ⟨v, fault, hv, hverdict⟩
  have hin := (h r.code v hv).verdict r
  rw [hverdict] at hin
  cases hin

theorem AttributeSet.mem_entries_of_known? {a : AttributeSet} {code : String} {v : Value}
    (h : a.known? code = some v) : (code, v) ∈ a.entries :=
  mem_of_lookup_eq_some (find?_of_known? h)

/-! ## One operation after the other -/

section

variable {α : Type} {x y : Report (List α)}

theorem isOk_append_iff : IsOk (x >>= fun xs => y >>= fun ys => pure (xs ++ ys)).outcome ↔
    IsOk x.outcome ∧ IsOk y.outcome := by
  constructor
  · rintro ⟨result, h⟩
    obtain ⟨xs, hxs, h⟩ := Report.outcome_bind_eq_ok_iff.1 h
    obtain ⟨ys, hys, -⟩ := Report.outcome_bind_eq_ok_iff.1 h
    exact ⟨⟨xs, hxs⟩, ys, hys⟩
  · rintro ⟨hx, hy⟩
    exact .report_bind hx fun _ _ => .report_bind hy fun _ _ => .ok _

theorem events_append (hx : IsOk x.outcome) (hy : IsOk y.outcome) :
    (x >>= fun xs => y >>= fun ys => pure (xs ++ ys)).events = x.events ++ y.events := by
  obtain ⟨xs, hxs⟩ := hx
  obtain ⟨ys, hys⟩ := hy
  rw [Report.bind_of_ok hxs, Report.bind_of_ok hys]
  exact congrArg (x.events ++ ·) (List.append_nil _)

end

namespace Call

variable {a : AttributeSet} {c : DrawingContext} {calls : List Call}

theorem drawAll_isOk_iff : IsOk (drawAll a c calls).outcome ↔
    ∀ call ∈ calls, IsOk (call.draw a c).outcome := by
  induction calls with
  | nil => exact iff_of_true (.ok _) fun call hcall => absurd hcall List.not_mem_nil
  | cons call calls ih =>
    rw [List.forall_mem_cons, ← ih]
    exact isOk_append_iff

theorem drawAll_events (h : ∀ call ∈ calls, IsOk (call.draw a c).outcome) :
    (drawAll a c calls).events = calls.flatMap fun call => (call.draw a c).events := by
  induction calls with
  | nil => rfl
  | cons call calls ih =>
    obtain ⟨hcall, hrest⟩ := List.forall_mem_cons.1 h
    rw [List.flatMap_cons, ← ih hrest]
    exact events_append hcall (drawAll_isOk_iff.2 hrest)

end Call

namespace Presentation

/-! ## Complete tables -/

/-- The tables have all that their calls need. -/
structure IsComplete (p : Presentation) : Prop where
  read : p.table.IsRead
  uniform : p.palette.IsUniform
  tokens : ∀ token ∈ Procedure.drawnTokens, p.palette.has token = true
  symbols : ∀ name ∈ Procedure.ownPattern :: Procedure.ownSymbols,
    (p.registry.find? name).isSome = true
  covered : ∀ rule ∈ p.table.rules, ∀ call ∈ rule.calls, call.IsCovered p.registry p.palette

/-- The calls that a build draws for a feature. -/
def callsFor (p : Presentation) (f : Feature) : List Call :=
  match p.table.select f.attributeSet f.tableSet with
  | none => []
  | some rule => rule.calls

/-- What a build reads for a feature lies in the range of the doubles. -/
def IsWithin (p : Presentation) (s : Settings) (f : Feature) : Prop :=
  ∀ call ∈ p.callsFor f, call.IsWithin f.attributeSet s

/-- The diagnostics for the values of a feature that cannot be used. -/
def findings (p : Presentation) (f : Feature) : List Diagnostic :=
  (p.callsFor f).flatMap fun call =>
    (call.readings f.attributeSet).filterMap f.attributeSet.finding?

section

variable {p : Presentation} {s : Settings} {f : Feature}

theorem IsComplete.isReady (hp : p.IsComplete) {call : Call} (hcall : call ∈ p.callsFor f) :
    call.IsReady (p.context s f.tableSet) := by
  unfold callsFor at hcall
  cases hselect : p.table.select f.attributeSet f.tableSet with
  | none =>
    rw [hselect] at hcall
    cases hcall
  | some rule =>
    rw [hselect] at hcall
    have hrule : rule ∈ p.table.rules :=
      LookupTable.mem_rules_of_mem_rulesFor (LookupTable.mem_rulesFor_of_select hselect)
    exact ⟨hp.read.isSettled hrule hcall, ⟨rule.name, p.check_of_mem hrule hcall⟩,
      hp.covered rule hrule call hcall⟩

theorem IsComplete.context (hp : p.IsComplete) (hs : s.IsNumeric) (t : TableSet) :
    (p.context s t).IsComplete :=
  ⟨hp.uniform, hp.tokens, hp.symbols, hs⟩

/-! ## One feature -/

/-- The layers of a feature come of what its calls draw. -/
theorem exists_compileFeature_eq (p : Presentation) (s : Settings) (index : Nat) (f : Feature) :
    ∃ layers : List Fragment → List RankedLayer, p.compileFeature s index f =
      Call.drawAll f.attributeSet (p.context s f.tableSet) (p.callsFor f) >>= fun fragments =>
        pure (layers fragments) := by
  unfold compileFeature callsFor
  cases p.table.select f.attributeSet f.tableSet with
  | none => exact ⟨fun _ => [], rfl⟩
  | some rule => exact ⟨_, rfl⟩

theorem IsComplete.compileFeature_isOk_iff (hp : p.IsComplete) (hs : s.IsNumeric) (index : Nat) :
    IsOk (p.compileFeature s index f).outcome ↔ p.IsWithin s f := by
  obtain ⟨layers, hlayers⟩ := exists_compileFeature_eq p s index f
  have hcalls : IsOk (p.compileFeature s index f).outcome ↔
      IsOk (Call.drawAll f.attributeSet (p.context s f.tableSet) (p.callsFor f)).outcome := by
    rw [hlayers]
    constructor
    · rintro ⟨result, h⟩
      obtain ⟨fragments, hfragments, -⟩ := Report.outcome_bind_eq_ok_iff.1 h
      exact ⟨fragments, hfragments⟩
    · exact fun h => .report_bind h fun _ _ => .ok _
  rw [hcalls, Call.drawAll_isOk_iff]
  exact forall₂_congr fun call hcall => (hp.isReady hcall).draw_isOk_iff (hp.context hs _) _

theorem IsComplete.compileFeature_events (hp : p.IsComplete) (hs : s.IsNumeric) (index : Nat)
    (hf : p.IsWithin s f) :
    (p.compileFeature s index f).events = (p.findings f).map Event.diagnostic := by
  have hready {call : Call} (hcall : call ∈ p.callsFor f) := hp.isReady (s := s) hcall
  have hok : ∀ call ∈ p.callsFor f,
      IsOk (call.draw f.attributeSet (p.context s f.tableSet)).outcome := fun call hcall =>
    ((hready hcall).draw_isOk_iff (hp.context hs _) _).2 (hf call hcall)
  obtain ⟨layers, hlayers⟩ := exists_compileFeature_eq p s index f
  obtain ⟨fragments, hfragments⟩ := Call.drawAll_isOk_iff.2 hok
  rw [hlayers, Report.bind_of_ok hfragments]
  show _ ++ [] = _
  rw [List.append_nil, Call.drawAll_events hok, findings, List.map_flatMap]
  exact List.flatMap_congr fun call hcall =>
    ((hready hcall).draw_heeds (hp.context hs _) (hf call hcall)).2

/-! ## All features -/

theorem IsComplete.compileAll_isOk_iff (hp : p.IsComplete) (hs : s.IsNumeric)
    (features : List (Feature × Nat)) : IsOk (p.compileAll s features).outcome ↔
      ∀ entry ∈ features, p.IsWithin s entry.1 := by
  induction features with
  | nil => exact iff_of_true (.ok _) fun entry hentry => absurd hentry List.not_mem_nil
  | cons entry features ih =>
    rw [List.forall_mem_cons, ← ih, ← hp.compileFeature_isOk_iff hs entry.2]
    exact isOk_append_iff

theorem IsComplete.compileAll_events (hp : p.IsComplete) (hs : s.IsNumeric)
    {features : List (Feature × Nat)} (h : ∀ entry ∈ features, p.IsWithin s entry.1) :
    (p.compileAll s features).events =
      (features.flatMap fun entry => p.findings entry.1).map Event.diagnostic := by
  induction features with
  | nil => rfl
  | cons entry features ih =>
    obtain ⟨hentry, hrest⟩ := List.forall_mem_cons.1 h
    rw [List.flatMap_cons, List.map_append, ← ih hrest,
      ← hp.compileFeature_events hs entry.2 hentry]
    exact events_append ((hp.compileFeature_isOk_iff hs entry.2).2 hentry)
      ((hp.compileAll_isOk_iff hs features).2 hrest)

theorem diagnosticsOf_append (events events' : List Event) :
    Report.diagnosticsOf (events ++ events') =
      Report.diagnosticsOf events ++ Report.diagnosticsOf events' := List.filterMap_append

theorem diagnosticsOf_map_diagnostic (ds : List Diagnostic) :
    Report.diagnosticsOf (ds.map Event.diagnostic) = ds := by
  induction ds with
  | nil => rfl
  | cons d ds ih => exact congrArg (d :: ·) ih

theorem diagnostics_bind_eq_nil {α β : Type} {x : Report α} {f : α → Report β}
    (hx : x.diagnostics = []) (hf : ∀ a, (f a).diagnostics = []) : (x >>= f).diagnostics = [] := by
  cases h : x.outcome with
  | error fault =>
    rw [Report.bind_of_error h]
    exact hx
  | ok a =>
    rw [Report.bind_of_ok h]
    exact (diagnosticsOf_append _ _).trans (List.append_eq_nil_iff.2 ⟨hx, hf a⟩)

/-- The check of settings gives no diagnostics. -/
theorem diagnostics_validate (s : Settings) : s.validate.diagnostics = [] := by
  unfold Settings.validate
  refine diagnostics_bind_eq_nil rfl fun shallow => diagnostics_bind_eq_nil rfl fun safety => ?_
  refine diagnostics_bind_eq_nil rfl fun deep => ?_
  dsimp only
  repeat' split
  all_goals rfl

/-- Each feature of a catalog is compiled, whatever its table set. -/
theorem forall_mem_arranged {catalog : Catalog} {property : Feature → Prop} :
    (∀ entry ∈ arranged catalog, property entry.1) ↔ ∀ f ∈ catalog, property f := by
  constructor
  · intro h f hf
    obtain ⟨index, hindex⟩ := List.mem_iff_getElem?.1 hf
    exact h (f, index) (mem_arranged.2 hindex)
  · rintro h ⟨f, index⟩ hentry
    exact h f (List.mem_of_getElem? (mem_arranged.1 hentry))

/-! ## Builds -/

/-- The layers of a build come of those of its features. -/
theorem exists_build_eq (p : Presentation) (s : Settings) (catalog : Option Catalog) :
    ∃ layers : List RankedLayer → List Layer, p.build s catalog = s.validate >>= fun _ =>
      p.compileAll s (arranged (catalog.getD (Catalog.ofTable p.table))) >>= fun ranked =>
        pure (layers ranked) := by
  refine ⟨fun ranked => (sortLayers ranked).map (·.layer), ?_⟩
  unfold build buildRanked
  simp only [bind_assoc, pure_bind]

theorem IsComplete.build_isOk_iff (hp : p.IsComplete) (hs : s.validate.outcome = .ok ())
    (catalog : Option Catalog) : IsOk (p.build s catalog).outcome ↔
      ∀ f ∈ catalog.getD (Catalog.ofTable p.table), p.IsWithin s f := by
  have hnumeric := Settings.isNumeric_of_validate hs
  obtain ⟨layers, hlayers⟩ := exists_build_eq p s catalog
  rw [← forall_mem_arranged, ← hp.compileAll_isOk_iff hnumeric, hlayers]
  constructor
  · rintro ⟨result, h⟩
    obtain ⟨-, -, h⟩ := Report.outcome_bind_eq_ok_iff.1 h
    obtain ⟨ranked, hranked, -⟩ := Report.outcome_bind_eq_ok_iff.1 h
    exact ⟨ranked, hranked⟩
  · exact fun h => .report_bind ⟨(), hs⟩ fun _ _ => .report_bind h fun _ _ => .ok _

theorem IsComplete.build_diagnostics (hp : p.IsComplete) (hs : s.validate.outcome = .ok ())
    {catalog : Option Catalog}
    (h : ∀ f ∈ catalog.getD (Catalog.ofTable p.table), p.IsWithin s f) :
    (p.build s catalog).diagnostics =
      (arranged (catalog.getD (Catalog.ofTable p.table))).flatMap fun entry =>
        p.findings entry.1 := by
  have hnumeric := Settings.isNumeric_of_validate hs
  have hwithin := forall_mem_arranged.2 h
  obtain ⟨layers, hlayers⟩ := exists_build_eq p s catalog
  obtain ⟨ranked, hranked⟩ := (hp.compileAll_isOk_iff hnumeric _).2 hwithin
  have hvalidate : Report.diagnosticsOf s.validate.events = [] := diagnostics_validate s
  rw [hlayers, Report.bind_of_ok hs, Report.bind_of_ok hranked]
  show Report.diagnosticsOf (s.validate.events ++ (_ ++ [])) = _
  rw [List.append_nil, diagnosticsOf_append, hvalidate, hp.compileAll_events hnumeric hwithin]
  exact diagnosticsOf_map_diagnostic _

end

end Presentation

/-! ## The bundled tables -/

namespace Bundled

/-- The rule of a row is read, it passes the checks, and the tables cover its calls. -/
def rowHolds (entry : RuleRow × Nat) : Bool :=
  match entry.1.rule entry.2 with
  | .ok rule => rule.calls.all fun call =>
      decide (call.IsCovered registry palette) && (call.check palette rule.name).isOk
  | .error _ => false

theorem rowHolds_of_mem : ∀ entry ∈ ruleRows.zipIdx, rowHolds entry = true := by decide +kernel

theorem exists_rule_of_rowHolds {entry : RuleRow × Nat} (h : rowHolds entry = true) :
    ∃ rule, entry.1.rule entry.2 = .ok rule ∧ ∀ call ∈ rule.calls,
      call.IsCovered registry palette ∧ call.check palette rule.name = .ok () := by
  unfold rowHolds at h
  cases hrule : entry.1.rule entry.2 with
  | error fault =>
    rw [hrule] at h
    cases h
  | ok rule =>
    rw [hrule] at h
    refine ⟨rule, rfl, fun call hcall => ?_⟩
    obtain ⟨hcovered, hcheck⟩ := Bool.and_eq_true_iff.1 (List.all_eq_true.1 h call hcall)
    refine ⟨of_decide_eq_true hcovered, ?_⟩
    cases hok : call.check palette rule.name with
    | ok => rfl
    | error fault =>
      rw [hok] at hcheck
      cases hcheck

/-- The rule of a row is read from its instruction, and has its key and its constraints. -/
theorem RuleRow.of_rule_eq_ok {row : RuleRow} {index : Nat} {rule : LookupRule}
    (h : row.rule index = .ok rule) :
    parseInstructions rule.instruction (some rule.objectClass) = .ok rule.calls ∧
      rule.instruction = row.instruction ∧ rule.objectClass = row.objectClass ∧
      rule.tableSet = row.tableSet ∧
      rule.constraints = row.constraints.map fun (code, expected) => ⟨code, expected⟩ := by
  obtain ⟨calls, hcalls, hrule⟩ := except_bind_eq_ok_iff.1 h
  cases hrule
  exact ⟨hcalls, rfl, rfl, rfl, rfl⟩

/-- The rules of the bundled table, each read from its row. -/
theorem exists_rules : ∃ rules, table = .ok (LookupTable.ofRules rules) ∧
    List.Forall₂ (fun (entry : RuleRow × Nat) rule => entry.1.rule entry.2 = .ok rule)
      ruleRows.zipIdx rules := by
  cases h : ruleRows.zipIdx.mapM fun (entry : RuleRow × Nat) => entry.1.rule entry.2 with
  | error fault =>
    obtain ⟨entry, hentry, herror⟩ := exists_of_mapM_eq_error h
    obtain ⟨rule, hrule, -⟩ := exists_rule_of_rowHolds (rowHolds_of_mem entry hentry)
    rw [hrule] at herror
    cases herror
  | ok rules => exact ⟨rules, except_bind_eq_ok_iff.2 ⟨rules, h, rfl⟩, mapM_eq_ok_iff.1 h⟩

/-- A bundled presentation has the rules of the rows. -/
theorem exists_row_of_mem_rules {t : LookupTable} (ht : table = .ok t) {rule : LookupRule}
    (hrule : rule ∈ t.rules) : ∃ entry ∈ ruleRows.zipIdx, entry.1.rule entry.2 = .ok rule := by
  obtain ⟨rules, htable, hrules⟩ := exists_rules
  cases htable.symm.trans ht
  exact exists_mem_of_forall₂ hrules (LookupTable.mem_rules_ofRules.1 hrule)

theorem holds_of_mem_rules {t : LookupTable} (ht : table = .ok t) {rule : LookupRule}
    (hrule : rule ∈ t.rules) : ∀ call ∈ rule.calls,
      call.IsCovered registry palette ∧ call.check palette rule.name = .ok () := by
  obtain ⟨entry, hentry, hread⟩ := exists_row_of_mem_rules ht hrule
  obtain ⟨rule', hread', hholds⟩ := exists_rule_of_rowHolds (rowHolds_of_mem entry hentry)
  cases hread.symm.trans hread'
  exact hholds

/-- There is a bundled presentation. -/
theorem exists_presentation : ∃ p, presentation none none none = .ok p := by
  obtain ⟨rules, htable, -⟩ := exists_rules
  have hcheck : (LookupTable.ofRules rules).check palette = .ok () :=
    forM_eq_ok_iff.2 fun rule hrule => forM_eq_ok_iff.2 fun call hcall =>
      (holds_of_mem_rules htable hrule call hcall).2
  refine ⟨⟨LookupTable.ofRules rules, registry, palette, hcheck⟩, ?_⟩
  refine except_bind_eq_ok_iff.2 ⟨_, htable, ?_⟩
  show Presentation.ofTables _ registry palette = _
  unfold Presentation.ofTables
  split
  · rfl
  · next h => cases hcheck.symm.trans h

theorem eq_of_presentation {p : Presentation} (h : presentation none none none = .ok p) :
    table = .ok p.table ∧ p.registry = registry ∧ p.palette = palette := by
  obtain ⟨t, ht, h⟩ := except_bind_eq_ok_iff.1 h
  have h : Presentation.ofTables t registry palette = .ok p := h
  unfold Presentation.ofTables at h
  split at h
  · cases h
    exact ⟨ht, rfl, rfl⟩
  · cases h

/-- The bundled tables have all that their calls need. -/
theorem isComplete {p : Presentation} (h : presentation none none none = .ok p) :
    p.IsComplete := by
  obtain ⟨htable, hregistry, hpalette⟩ := eq_of_presentation h
  constructor
  · intro rule hrule
    obtain ⟨entry, -, hread⟩ := exists_row_of_mem_rules htable hrule
    exact ⟨some rule.objectClass, (RuleRow.of_rule_eq_ok hread).1⟩
  · rw [hpalette]
    exact palette_isUniform
  · rw [hpalette]
    exact palette_has_drawnTokens
  · rw [hregistry]
    decide +kernel
  · intro rule hrule call hcall
    rw [hregistry, hpalette]
    exact (holds_of_mem_rules htable hrule call hcall).1

/-- With the bundled tables a build succeeds just when what it reads lies in the range of the
doubles, as it does where all values and thresholds lie there. Then its diagnostics are the findings
of all features, in the order of drawing; and every call of a feature draws what it draws with
stand-ins for the values that cannot be used. -/
theorem build_heeds {p : Presentation} (hp : presentation none none none = .ok p) {s : Settings}
    (hs : s.validate.outcome = .ok ()) (catalog : Option Catalog) :
    ((∃ layers, (p.build s catalog).outcome = .ok layers) ↔
      ∀ f ∈ catalog.getD (Catalog.ofTable p.table), p.IsWithin s f) ∧
    (∀ f : Feature, (∀ code v, f.attributeSet.known? code = some v → v.InRange) → s.InRange →
      p.IsWithin s f) ∧
    ((∀ f ∈ catalog.getD (Catalog.ofTable p.table), p.IsWithin s f) →
      (p.build s catalog).diagnostics =
        (Presentation.arranged (catalog.getD (Catalog.ofTable p.table))).flatMap fun entry =>
          p.findings entry.1) ∧
    ∀ f, p.IsWithin s f → ∀ call ∈ p.callsFor f,
      (call.draw f.attributeSet (p.context s f.tableSet)).outcome =
        (call.draw (f.attributeSet.mend (call.readings f.attributeSet))
          (p.context s f.tableSet)).outcome := by
  have hcomplete := isComplete hp
  have hnumeric := Settings.isNumeric_of_validate hs
  refine ⟨hcomplete.build_isOk_iff hs catalog, ?_, hcomplete.build_diagnostics hs, ?_⟩
  · intro f hvalues hrange call _
    exact ⟨fun r _ => AttributeSet.not_exceeds_of_inRange hvalues r, fun _ _ _ => hrange⟩
  · intro f hf call hcall
    exact ((hcomplete.isReady hcall).draw_heeds (hcomplete.context hnumeric f.tableSet)
      (hf call hcall)).1

/-! ## Soundings -/

/-- A sounding with a depth. -/
def soundingOf (depth : Value) : Feature := ⟨"SOUNDG", .points, [("DEPTH", depth)], .null⟩

/-- The call that soundings are drawn with. -/
def soundingCall : Call := ⟨.cs, [.text "SOUNDG02"]⟩

/-- The row of soundings. -/
def soundingRow : RuleRow := ⟨"SOUNDG", .points, [], "CS(SOUNDG02)", 4, .other, 33010⟩

theorem eq_soundingRow : ∀ entry ∈ ruleRows.zipIdx, entry.1.objectClass = "SOUNDG" →
    entry.1.tableSet = .points → entry.1.instruction = "CS(SOUNDG02)" := by decide

/-- The bundled rules draw soundings with their procedure. -/
theorem callsFor_soundingOf {p : Presentation} (hp : presentation none none none = .ok p)
    (depth : Value) : p.callsFor (soundingOf depth) = [soundingCall] := by
  have hcalls : parseInstructions "CS(SOUNDG02)" (some "SOUNDG") = .ok [soundingCall] := by
    with_unfolding_all rfl
  obtain ⟨htable, -, -⟩ := eq_of_presentation hp
  obtain ⟨rules, hrules, hread⟩ := exists_rules
  have htable : p.table = .ofRules rules := Except.ok.inj (htable.symm.trans hrules)
  have hselected : (p.table.select (soundingOf depth).attributeSet .points).isSome = true := by
    obtain ⟨rule, hrule, hrow⟩ := exists_mem_of_forall₂ hread.flip
      (List.mk_mem_zipIdx_iff_getElem?.2 (show ruleRows[28]? = some soundingRow from rfl))
    obtain ⟨-, -, hclass, hset, hconstraints⟩ := RuleRow.of_rule_eq_ok hrow
    refine List.find?_isSome.2 ⟨rule, ?_, ?_⟩
    · rw [htable]
      exact LookupTable.mem_rulesFor_ofRules.2 ⟨hrule, hclass, hset⟩
    · rw [LookupRule.matchesAttributes, hconstraints]
      rfl
  obtain ⟨rule, hselect⟩ := Option.isSome_iff_exists.1 hselected
  have hmem := LookupTable.mem_rulesFor_of_select hselect
  rw [htable] at hmem
  obtain ⟨hrule, hclass, hset⟩ := LookupTable.mem_rulesFor_ofRules.1 hmem
  obtain ⟨entry, hentry, hrow⟩ := exists_mem_of_forall₂ hread hrule
  obtain ⟨hparse, hinstruction, hclass', hset', -⟩ := RuleRow.of_rule_eq_ok hrow
  rw [hinstruction, hclass, eq_soundingRow entry hentry (hclass'.symm.trans hclass)
    (hset'.symm.trans hset)] at hparse
  have hsame : rule.calls = [soundingCall] := Except.ok.inj (hparse.symm.trans hcalls)
  have hselect : p.table.select (soundingOf depth).attributeSet (soundingOf depth).tableSet = _ :=
    hselect
  rw [Presentation.callsFor, hselect]
  exact hsame

/-- The default settings are valid. -/
theorem validate_default : (Settings.validate {}).outcome = .ok () := by decide +kernel

theorem inRange_default : Settings.InRange {} := by
  have h : ∀ entry ∈ (Settings.thresholds {}), entry.2.toDouble.isOk = true := by decide +kernel
  intro entry hentry
  cases hx : entry.2.toDouble with
  | ok x => exact ⟨x, rfl⟩
  | error fault =>
    have hok := h entry hentry
    rw [hx] at hok
    cases hok

theorem inRange_mud : (Value.text "mud").InRange := by
  refine ⟨fun n hn => (nomatch hn), fun item hitem => ?_⟩
  have hitems : AttributeSet.listItems (.text "mud") = [.text "mud"] := by with_unfolding_all rfl
  obtain rfl := List.mem_singleton.1 (hitems ▸ hitem)
  have hfault : (Value.text "mud").toDouble.isOk = false := by decide +kernel
  refine ⟨fun n hn => (nomatch hn), fun negative hinfinite => ?_⟩
  rw [hinfinite] at hfault
  cases hfault

/-- A sounding whose depth is no number is drawn at the surface, and noted. -/
theorem build_heeds_muddy : ∃ p, presentation none none none = .ok p ∧
    (Settings.validate {}).outcome = .ok () ∧
      (∃ layers, (p.build {} (some [soundingOf (.text "mud")])).outcome = .ok layers) ∧
        (p.build {} (some [soundingOf (.text "mud")])).diagnostics =
          [⟨.malformedAttribute "DEPTH" (.text "mud") (.real 0), some "SOUNDG"⟩] := by
  obtain ⟨p, hp⟩ := exists_presentation
  obtain ⟨hok, hin, hdiagnostics, -⟩ :=
    build_heeds hp validate_default (some [soundingOf (.text "mud")])
  have hwithin : ∀ f ∈ [soundingOf (.text "mud")], p.IsWithin {} f := by
    refine List.forall_mem_singleton.2 (hin _ (fun code v hv => ?_) inRange_default)
    obtain ⟨-, rfl⟩ := Prod.mk.inj (List.mem_singleton.1 (AttributeSet.mem_entries_of_known? hv))
    exact inRange_mud
  refine ⟨p, hp, validate_default, hok.2 hwithin, (hdiagnostics hwithin).trans ?_⟩
  have hfindings : p.findings (soundingOf (.text "mud")) =
      [⟨.malformedAttribute "DEPTH" (.text "mud") (.real 0), some "SOUNDG"⟩] := by
    rw [Presentation.findings, callsFor_soundingOf hp]
    with_unfolding_all rfl
  exact (List.append_nil _).trans hfindings

/-- The depth of a sounding is known. -/
theorem known?_soundingOf {depth : Value} (h : depth.isKnown = true) :
    (soundingOf depth).attributeSet.known? "DEPTH" = some depth := by
  rw [AttributeSet.known?_eq]
  exact Option.filter_eq_some_iff.2 ⟨rfl, h⟩

/-- A build fails over a sounding whose depth is a whole number beyond the range of the doubles. -/
theorem build_soundingOf_beyond {p : Presentation} (hp : presentation none none none = .ok p)
    {s : Settings} (hs : s.validate.outcome = .ok ()) {n : Int} (hn : Double.ofInt? n = none) :
    (p.build s (some [soundingOf (.int n)])).outcome = .error (.data .intTooLarge) := by
  have hknown : (soundingOf (.int n)).attributeSet.known? "DEPTH" = some (.int n) :=
    known?_soundingOf rfl
  have hdepth : (Procedure.depth? (soundingOf (.int n)).attributeSet "DEPTH" 0).outcome =
      .error (.data .intTooLarge) := by
    rw [Procedure.depth?, AttributeSet.isKnown_eq, AttributeSet.getReal_eq, hknown]
    simp only [Value.asReal, hn]
    rfl
  have hsounding : (Procedure.sounding (soundingOf (.int n)).attributeSet s).outcome =
      .error (.data .intTooLarge) := by
    rw [Procedure.sounding, Report.bind_of_error hdepth]
  have hdraw : (soundingCall.draw (soundingOf (.int n)).attributeSet
      (p.context s .points)).outcome = .error (.data .intTooLarge) := by
    rw [Call.draw_of_procedure (p := .soundg02) _ _ rfl]
    exact congrArg Report.outcome (Report.bind_of_error hsounding _)
  have hdrawAll : (Call.drawAll (soundingOf (.int n)).attributeSet (p.context s .points)
      [soundingCall]).outcome = .error (.data .intTooLarge) := by
    rw [Call.drawAll, Report.bind_of_error hdraw]
  have hfeature : (p.compileFeature s 0 (soundingOf (.int n))).outcome =
      .error (.data .intTooLarge) := by
    obtain ⟨layers, hlayers⟩ := Presentation.exists_compileFeature_eq p s 0 (soundingOf (.int n))
    rw [hlayers, callsFor_soundingOf hp]
    exact congrArg Report.outcome (Report.bind_of_error hdrawAll _)
  have hall : (p.compileAll s (Presentation.arranged [soundingOf (.int n)])).outcome =
      .error (.data .intTooLarge) :=
    congrArg Report.outcome (Report.bind_of_error hfeature _)
  obtain ⟨layers, hlayers⟩ := Presentation.exists_build_eq p s (some [soundingOf (.int n)])
  rw [hlayers, Report.bind_of_ok hs]
  exact congrArg Report.outcome (Report.bind_of_error hall _)

/-- A depth with four hundred zeros. -/
def tooDeep : Feature := soundingOf (.int (Int.pow 10 400))

/-- A depth that is too large makes a build fail. -/
theorem build_tooDeep : ∃ p, presentation none none none = .ok p ∧
    (Settings.validate {}).outcome = .ok () ∧
      (p.build {} (some [tooDeep])).outcome = .error (.data .intTooLarge) := by
  obtain ⟨p, hp⟩ := exists_presentation
  have hn : (Double.ofInt? (Int.pow 10 400)).isNone = true := by decide +kernel
  exact ⟨p, hp, validate_default,
    build_soundingOf_beyond hp validate_default (Option.isNone_iff_eq_none.1 hn)⟩

end Bundled

end ChartStyle
