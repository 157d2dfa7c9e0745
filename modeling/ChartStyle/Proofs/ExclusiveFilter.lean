import ChartStyle.Proofs.CanonicalOrder
import ChartStyle.Renderer.Evaluate
import Mathlib

/-!
# Exclusive filters are exact

The first rule of a table whose constraints are met is found twice: by a search through the rules
now, and by the renderer through a filter that holds the conditions of one rule and the negations
of the rules before it. Both find the same rule (`exclusiveFilter_exact`): a rule that wins at all
is accepted exactly where it wins. The filter leaves out rules without constraints, which is right
because no rule behind such a one ever wins (`Wins.constraints_ne_nil`).
-/

set_option autoImplicit false

namespace ChartStyle

/-- The attributes of the feature say something, and the renderer writes each in its normal
form. -/
def TileFeature.IsNormal (f : TileFeature) (r : Renderer) : Prop :=
  ∀ code v, f.find? code = some v → v.isStated = true ∧ r.text v = v.normalForm

/-! ## Conjunctions -/

namespace Renderer

variable (r : Renderer) (f : TileFeature)

theorem evalAll_map {α : Type} {xs : List α} {g : α → Expr} {p : α → Bool}
    (h : ∀ x ∈ xs, r.eval f (g x) = some (.bool (p x))) :
    r.evalAll f (xs.map g) = some (.bool (xs.all p)) := by
  induction xs with
  | nil => rfl
  | cons x xs ih =>
    have hx := h x List.mem_cons_self
    have hxs := ih fun y hy => h y (List.mem_cons_of_mem x hy)
    rw [List.map_cons, evalAll, hx, List.all_cons]
    cases p x with
    | true => simpa using hxs
    | false => rfl

/-- A conjunction accepts a feature exactly when each of its members holds. -/
theorem accepts_all_iff {es : List Expr} :
    r.accepts f (.all es) = true ↔ ∀ e ∈ es, r.eval f e = some (.bool true) := by
  -- A conjunction is true only after all its members were looked at.
  have key : r.evalAll f es = some (.bool true) ↔ ∀ e ∈ es, r.eval f e = some (.bool true) := by
    induction es with
    | nil => simp [evalAll]
    | cons e es ih =>
      rw [List.forall_mem_cons, ← ih, evalAll]
      constructor
      · intro h
        cases he : r.eval f e with
        | none => simp [he] at h
        | some v =>
          cases v with
          | bool b =>
            cases b with
            | true => exact ⟨rfl, by simpa [he] using h⟩
            | false => simp [he] at h
          | _ => simp [he] at h
      · rintro ⟨he, hes⟩
        simpa [he] using hes
  rw [← key, accepts, eval]
  cases r.evalAll f es with
  | none => simp
  | some v => cases v <;> simp

end Renderer

/-! ## One rule -/

section Rule

variable {r : Renderer} {f : TileFeature} (hf : f.IsNormal r) (objectClass : String)

include hf

theorem has_attributeSet (code : String) :
    (f.attributeSet objectClass).has code = (f.find? code).isSome := by
  have hfind : (f.attributeSet objectClass).find? code = f.find? code := rfl
  rw [AttributeSet.has, hfind]
  cases h : f.find? code with
  | none => rfl
  | some v => exact (hf code v h).1

/-- The renderer decides a constraint as it is decided now. -/
theorem eval_condition {c : Constraint} (hc : c.expected ≠ some "") :
    r.eval f c.condition = some (.bool (c.holds (f.attributeSet objectClass))) := by
  rw [Constraint.condition, Constraint.holds, has_attributeSet hf objectClass]
  cases hexp : c.expected with
  | none => simp [Renderer.eval]
  | some expected =>
    have hne : expected ≠ "" := fun h => hc (by rw [hexp, h])
    cases hfind : f.find? c.code with
    -- The renderer compares the empty text of a missing value with one that is not empty.
    | none =>
      have htext : (Value.text "").equals (.text expected) = false := by
        simpa [Value.equals] using hne.symm
      simp [Renderer.eval, Expr.text, hfind, r.text_null, htext]
    | some v =>
      obtain ⟨-, htext⟩ := hf c.code v hfind
      have hraw : (f.attributeSet objectClass).raw c.code = v := by
        rw [AttributeSet.raw, has_attributeSet hf, hfind]
        show (f.find? c.code).getD .null = v
        rw [hfind]
        rfl
      simp [Renderer.eval, Expr.text, hfind, hraw, htext, Value.equals]

/-- The negation of a rule's conditions holds exactly where the rule does not match. -/
theorem eval_refusal {rule : LookupRule} (hc : ∀ c ∈ rule.constraints, c.expected ≠ some "")
    {e : Expr} (he : LookupTable.refusal rule.conditions = some e) :
    r.eval f e = some (.bool (!rule.matchesAttributes (f.attributeSet objectClass))) := by
  have hall := Renderer.evalAll_map r f fun c hmem => eval_condition hf objectClass (hc c hmem)
  rw [LookupRule.conditions] at he
  rw [LookupRule.matchesAttributes]
  -- No constraint has no negation, one is negated alone, several as a conjunction.
  cases hconstraints : rule.constraints with
  | nil =>
    rw [hconstraints] at he
    cases he
  | cons c cs =>
    rw [hconstraints] at he hall hc
    cases cs with
    | nil =>
      cases he
      rw [Renderer.eval, eval_condition hf objectClass (hc c List.mem_cons_self)]
      simp
    | cons c' cs =>
      cases he
      rw [Renderer.eval, Renderer.eval, ← List.map_cons, hall]
      rfl

end Rule

theorem exists_refusal {rule : LookupRule} (h : rule.constraints ≠ []) :
    ∃ e, LookupTable.refusal rule.conditions = some e := by
  rw [LookupRule.conditions]
  cases hconstraints : rule.constraints with
  | nil => exact absurd hconstraints h
  | cons c cs =>
    cases cs with
    | nil => exact ⟨_, rfl⟩
    | cons c' cs => exact ⟨_, rfl⟩

/-! ## The rule that wins -/

namespace LookupTable

/-- The rule draws some feature of its object class and table set. -/
def Wins (t : LookupTable) (rule : LookupRule) : Prop :=
  ∃ a : AttributeSet, a.objectClass = rule.objectClass ∧ t.select a rule.tableSet = some rule

/-- Every value that a constraint of the table expects is written with at least one character. -/
def ExpectsTexts (t : LookupTable) : Prop :=
  ∀ rule ∈ t.rules, ∀ c ∈ rule.constraints, c.expected ≠ some ""

variable {t : LookupTable} {rule : LookupRule}

theorem Wins.mem_rulesFor (h : t.Wins rule) :
    rule ∈ t.rulesFor rule.objectClass rule.tableSet := by
  obtain ⟨a, ha, hselect⟩ := h
  rw [← ha]
  exact mem_rulesFor_of_select hselect

section Winner

variable (hindex : (t.rulesFor rule.objectClass rule.tableSet).Pairwise
    fun a b => a.index ≠ b.index) (hwins : t.Wins rule)

include hindex hwins

/-- A rule without constraints wins in place of every rule behind it. -/
theorem Wins.constraints_ne_nil : ∀ e ∈ t.earlier rule, e.constraints ≠ [] := by
  intro e he hnil
  have hmem := hwins.mem_rulesFor
  obtain ⟨a, ha, hselect⟩ := hwins
  obtain ⟨-, hearlier⟩ := (select_eq_some_iff hindex hmem ha).1 hselect
  -- The rule without constraints would have been selected in place of the winner.
  have hno := hearlier e he
  rw [LookupRule.matchesAttributes, hnil] at hno
  cases hno

/-- The filter of a rule that wins accepts the features that meet its constraints and those of no
rule before it. -/
theorem accepts_exclusiveFilter_iff (htexts : t.ExpectsTexts) {r : Renderer} {f : TileFeature}
    (hf : f.IsNormal r) :
    r.accepts f (t.exclusiveFilter rule) = true ↔
      rule.matchesAttributes (f.attributeSet rule.objectClass) = true ∧
        ∀ e ∈ t.earlier rule, e.matchesAttributes (f.attributeSet rule.objectClass) = false := by
  have hexpected : ∀ e ∈ t.rulesFor rule.objectClass rule.tableSet,
      ∀ c ∈ e.constraints, c.expected ≠ some "" :=
    fun e he => htexts e (mem_rules_of_mem_rulesFor he)
  have hearlier : ∀ e ∈ t.earlier rule, e ∈ t.rulesFor rule.objectClass rule.tableSet :=
    fun e he => (List.takeWhile_sublist _).subset he
  rw [exclusiveFilter, winningConditions, Renderer.accepts_all_iff, List.forall_mem_append]
  refine and_congr ?_ ?_
  -- The rule's own conditions.
  · rw [LookupRule.conditions, LookupRule.matchesAttributes, List.forall_mem_map, List.all_eq_true]
    refine forall₂_congr fun c hc => ?_
    rw [eval_condition hf rule.objectClass (hexpected rule hwins.mem_rulesFor c hc)]
    simp
  -- Every rule before it has constraints, so none is left out of the filter.
  · constructor
    · intro h e he
      obtain ⟨x, hx⟩ := exists_refusal (hwins.constraints_ne_nil hindex e he)
      have htrue := h x (List.mem_filterMap.2 ⟨e, he, hx⟩)
      rw [eval_refusal hf rule.objectClass (hexpected e (hearlier e he)) hx] at htrue
      simpa using htrue
    · intro h x hx
      obtain ⟨e, he, hx⟩ := List.mem_filterMap.1 hx
      rw [eval_refusal hf rule.objectClass (hexpected e (hearlier e he)) hx, h e he]
      rfl

end Winner

/-- A rule that wins is accepted by the renderer exactly where it wins. So no feature is accepted
for two such rules of one object class and table set, and a feature is accepted for some such rule
exactly when one is selected for it. -/
theorem exclusiveFilter_exact (r : Renderer) {records : List Value} {t : LookupTable}
    (ht : ofRecords records = .ok t) (htexts : t.ExpectsTexts) {f : TileFeature}
    (hf : f.IsNormal r) :
    (∀ rule, t.Wins rule →
      (r.accepts f (t.exclusiveFilter rule) = true ↔
        t.select (f.attributeSet rule.objectClass) rule.tableSet = some rule)) ∧
    (∀ rule other, t.Wins rule → t.Wins other → rule ≠ other →
      rule.objectClass = other.objectClass → rule.tableSet = other.tableSet →
      ¬(r.accepts f (t.exclusiveFilter rule) = true ∧
        r.accepts f (t.exclusiveFilter other) = true)) ∧
    ∀ objectClass tableSet,
      (∃ rule, t.Wins rule ∧ rule.objectClass = objectClass ∧ rule.tableSet = tableSet ∧
        r.accepts f (t.exclusiveFilter rule) = true) ↔
      t.select (f.attributeSet objectClass) tableSet ≠ none := by
  have hindex := index_nodup_of_ofRecords ht
  have hexact : ∀ rule, t.Wins rule →
      (r.accepts f (t.exclusiveFilter rule) = true ↔
        t.select (f.attributeSet rule.objectClass) rule.tableSet = some rule) := by
    intro rule hwins
    rw [accepts_exclusiveFilter_iff (hindex _ _) hwins htexts hf,
      select_eq_some_iff (hindex _ _) hwins.mem_rulesFor rfl]
  refine ⟨hexact, ?_, ?_⟩
  · rintro rule other hrule hother hne hclass hset ⟨haccepts, haccepts'⟩
    have hselect := (hexact rule hrule).1 haccepts
    have hselect' := (hexact other hother).1 haccepts'
    rw [← hclass, ← hset, hselect] at hselect'
    exact hne (Option.some.inj hselect')
  · intro objectClass tableSet
    constructor
    · rintro ⟨rule, hwins, rfl, rfl, haccepts⟩
      rw [(hexact rule hwins).1 haccepts]
      exact Option.some_ne_none rule
    · intro hselect
      obtain ⟨rule, hrule⟩ := Option.ne_none_iff_exists'.1 hselect
      obtain ⟨rules, -, rfl⟩ := ofRecords_eq_ok_iff.1 ht
      obtain ⟨-, hclass, hset⟩ := mem_rulesFor_ofRules.1 (mem_rulesFor_of_select hrule)
      obtain rfl : rule.objectClass = objectClass := hclass
      subst hset
      have hwins : (ofRules rules).Wins rule := ⟨f.attributeSet rule.objectClass, rfl, hrule⟩
      exact ⟨rule, hwins, rfl, rfl, (hexact rule hwins).2 hrule⟩

/-! ## Lateral buoys -/

/-- A rule for lit lateral buoys whose category is known, and one for all other lateral buoys. -/
def lateralRecords : List Value :=
  [.ofFields [("object_class", .text "BOYLAT"), ("table_set", .text "POINTS"),
      ("attributes", .ofFields [("STATUS", .text "lit"), ("CATLAM", .null)]),
      ("priority", .int 8)],
    .ofFields [("object_class", .text "BOYLAT"), ("table_set", .text "POINTS"),
      ("priority", .int 8)]]

/-- A rule for lateral buoys that draws nothing. -/
def lateralRule (index : Int) (constraints : List Constraint) : LookupRule :=
  { objectClass := "BOYLAT", tableSet := .points, constraints, instruction := "", priority := 8
    category := .standard, viewingGroup := 0, index, calls := [] }

/-- The rules of the records. -/
def lateralRules : List LookupRule :=
  [lateralRule 0 [⟨"STATUS", some "lit"⟩, ⟨"CATLAM", none⟩], lateralRule 1 []]

/-- A lit buoy of unknown category. -/
def litBuoy : TileFeature := ⟨.null, "Point", [("STATUS", .text "lit")]⟩

theorem ofRecords_lateralRecords : ofRecords lateralRecords = .ok (ofRules lateralRules) := by
  have hread : readRecords 0 lateralRecords = .ok lateralRules := by cbv
  exact ofRecords_eq_ok_iff.2 ⟨lateralRules, hread, rfl⟩

theorem expectsTexts_lateralRules : (ofRules lateralRules).ExpectsTexts := by
  intro rule hrule
  have hall : ∀ rule ∈ lateralRules, ∀ c ∈ rule.constraints, c.expected ≠ some "" := by decide
  exact hall rule (mem_rules_ofRules.1 hrule)

theorem isNormal_litBuoy : litBuoy.IsNormal .standard := by
  intro code v hv
  change List.lookup code [("STATUS", Value.text "lit")] = some v at hv
  rw [List.lookup_cons] at hv
  cases hcode : code == "STATUS" with
  | true =>
    rw [hcode] at hv
    cases hv
    exact ⟨rfl, by cbv⟩
  | false =>
    rw [hcode] at hv
    cases hv

theorem select_litBuoy :
    (ofRules lateralRules).select (litBuoy.attributeSet "BOYLAT") .points =
      some (lateralRule 1 []) := by
  have hsorted : lateralRules.Pairwise fun a b => precedes a b = true := by decide
  unfold select
  rw [rulesFor_ofRules, List.filter_eq_self.2 (by decide), List.mergeSort_of_pairwise hsorted]
  rfl

/-- A buoy that the first rule refuses is accepted by the filter of the second. -/
theorem exclusiveFilter_exact_litBuoy :
    ofRecords lateralRecords = .ok (ofRules lateralRules) ∧
      (ofRules lateralRules).ExpectsTexts ∧ litBuoy.IsNormal .standard ∧
      (ofRules lateralRules).Wins (lateralRule 1 []) ∧
      Renderer.standard.accepts litBuoy
        ((ofRules lateralRules).exclusiveFilter (lateralRule 1 [])) = true := by
  have hwins : (ofRules lateralRules).Wins (lateralRule 1 []) := ⟨_, rfl, select_litBuoy⟩
  obtain ⟨hexact, -⟩ := exclusiveFilter_exact .standard ofRecords_lateralRecords
    expectsTexts_lateralRules isNormal_litBuoy
  exact ⟨ofRecords_lateralRecords, expectsTexts_lateralRules, isNormal_litBuoy, hwins,
    (hexact (lateralRule 1 []) hwins).2 select_litBuoy⟩

end LookupTable

end ChartStyle
