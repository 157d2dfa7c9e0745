import ChartStyle.Catalog
import ChartStyle.Proofs.ExclusiveFilter
import ChartStyle.Proofs.NormalForm

/-!
# The groups that stand for rules

Without a catalog, a style is built from one group of features for each rule of the table. The group
of a rule has a text for each attribute that the rule looks at, and marks for those that its
procedures leave to the renderer. So it meets what the rule asks for and, by the marks, constraints
of other rules as well (`holds_group_iff`), and the rule that is selected for it can be another one
(`select_group_captured`). A rule that wins at all is selected for its own group, and drawn once,
when no mark of the group meets what a rule before it asks for (`select_group`).
-/

set_option autoImplicit false

namespace ChartStyle

/-! ## Attributes of a group -/

theorem lookup_setAttribute (attributes : List (String × Value)) (code : String) (v : Value)
    (c : String) :
    (setAttribute attributes code v).lookup c =
      if code = c then some v else attributes.lookup c := by
  induction attributes with
  | nil =>
    rw [setAttribute, List.lookup_cons, List.lookup_nil]
    by_cases h : code = c
    · simp [h]
    · simp [h, beq_eq_false_iff_ne.2 (Ne.symm h)]
  | cons entry rest ih =>
    obtain ⟨d, w⟩ := entry
    rw [setAttribute]
    by_cases hd : d = code
    · subst hd
      rw [if_pos rfl, List.lookup_cons, List.lookup_cons]
      by_cases h : d = c
      · simp [h]
      · simp [h, beq_eq_false_iff_ne.2 (Ne.symm h)]
    · rw [if_neg hd, List.lookup_cons, List.lookup_cons, ih]
      by_cases h : c = d
      · subst h
        simp [Ne.symm hd]
      · simp [beq_eq_false_iff_ne.2 h]

theorem any_eq_isSome_lookup (attributes : List (String × Value)) (code : String) :
    attributes.any (·.1 == code) = (attributes.lookup code).isSome := by
  induction attributes with
  | nil => rfl
  | cons entry rest ih =>
    obtain ⟨d, w⟩ := entry
    rw [List.any_cons, List.lookup_cons, ih]
    by_cases h : d = code
    · simp [h]
    · simp [beq_eq_false_iff_ne.2 h, beq_eq_false_iff_ne.2 (Ne.symm h)]

namespace Constraint

/-- The value that stands for a constraint in the group of its rule. -/
def representative (c : Constraint) : Value :=
  match c.expected with
  | some value => .text value
  | none => .perFeature

end Constraint

namespace LookupRule

variable {rule : LookupRule}

/-- The last constraint on an attribute, whose value the group keeps. -/
def lastOn (rule : LookupRule) (code : String) : Option Constraint :=
  rule.constraints.reverse.find? (·.code == code)

theorem lookup_foldl_setAttribute (constraints : List Constraint)
    (attributes : List (String × Value)) (code : String) :
    (constraints.foldl (fun attributes c => setAttribute attributes c.code c.representative)
        attributes).lookup code =
      ((constraints.reverse.find? (·.code == code)).map (·.representative)).or
        (attributes.lookup code) := by
  -- A later constraint overwrites an earlier one, so the list is searched from its end.
  induction constraints generalizing attributes with
  | nil => rfl
  | cons c cs ih =>
    rw [List.foldl_cons, ih, lookup_setAttribute, List.reverse_cons, List.find?_append,
      List.find?_singleton]
    cases cs.reverse.find? (·.code == code) with
    | some k => rfl
    | none => by_cases h : c.code = code <;> simp [h]

/-- A code that a procedure defers is marked unless it has a value already. -/
theorem lookup_foldl_mark (codes : List String) (attributes : List (String × Value))
    (code : String) :
    (codes.foldl (fun attributes c =>
        if attributes.any (·.1 == c) then attributes
        else attributes ++ [(c, .perFeature)]) attributes).lookup code =
      (attributes.lookup code).or (if code ∈ codes then some .perFeature else none) := by
  induction codes generalizing attributes with
  | nil => simp
  | cons c cs ih =>
    rw [List.foldl_cons, ih, any_eq_isSome_lookup]
    cases hc : attributes.lookup c with
    | some v =>
      by_cases h : code = c
      · subst h
        simp [hc]
      · simp [h]
    | none =>
      by_cases h : code = c
      · subst h
        simp [hc, List.lookup_append]
      · simp [h, List.lookup_append, List.lookup_cons, beq_eq_false_iff_ne.2 h]

theorem find?_group (rule : LookupRule) (code : String) :
    rule.group.attributeSet.find? code =
      ((rule.lastOn code).map (·.representative)).or
        (if code ∈ rule.deferredCodes then some .perFeature else none) := by
  have hset := lookup_foldl_setAttribute rule.constraints [] code
  rw [List.lookup_nil, Option.or_none] at hset
  rw [lastOn, ← hset]
  exact lookup_foldl_mark rule.deferredCodes _ code

/-! ## What a group meets -/

/-- The text of the mark for a value that only the renderer knows. -/
def markText : String := "DATA_DRIVEN"

/-- The text by which the group of a rule answers for an attribute: what the rule expects of it, or
the text of a mark. -/
def answer? (rule : LookupRule) (code : String) : Option String :=
  ((rule.lastOn code).map fun c => c.expected.getD markText).or
    (if code ∈ rule.deferredCodes then some markText else none)

/-- The group of the rule answers what the constraint asks for. -/
def Grants (rule : LookupRule) (c : Constraint) : Prop :=
  ∃ text, rule.answer? c.code = some text ∧ text ≠ "" ∧ ∀ expected ∈ c.expected, text = expected

/-- The texts that the rule expects are normal. -/
def ExpectsNormal (rule : LookupRule) : Prop :=
  ∀ c ∈ rule.constraints, ∀ expected ∈ c.expected, normalText expected = expected

theorem mem_of_lastOn {c : Constraint} {code : String} (h : rule.lastOn code = some c) :
    c ∈ rule.constraints ∧ c.code = code :=
  ⟨List.mem_reverse.1 (List.mem_of_find?_eq_some h), by simpa using List.find?_some h⟩

theorem normalForm_perFeature : Value.perFeature.normalForm = markText := by decide +kernel

/-- The value of a group for an attribute has the text by which the group answers, and it says
something when that text is not empty. -/
theorem answer?_group (hnormal : rule.ExpectsNormal) (code : String) :
    rule.answer? code = (rule.group.attributeSet.find? code).map (·.normalForm) ∧
      ∀ v ∈ rule.group.attributeSet.find? code, v.isStated = (v.normalForm != "") := by
  rw [answer?, find?_group]
  cases hlast : rule.lastOn code with
  | some c =>
    have hc := hnormal c (mem_of_lastOn hlast).1
    cases hexpected : c.expected with
    | some expected =>
      have htext : (Value.text expected).normalForm = expected := hc expected hexpected
      simp [Constraint.representative, hexpected, htext, Value.isStated]
    | none =>
      simp [Constraint.representative, hexpected, normalForm_perFeature, Value.isStated, markText]
  | none =>
    by_cases hdeferred : code ∈ rule.deferredCodes
    · simp [hdeferred, normalForm_perFeature, Value.isStated, markText]
    · simp [hdeferred]

end LookupRule

theorem Constraint.holds_iff {c : Constraint} {a : AttributeSet} :
    c.holds a = true ↔
      ∃ v, a.find? c.code = some v ∧ v.isStated = true ∧
        ∀ expected ∈ c.expected, v.normalForm = expected := by
  rw [holds, AttributeSet.raw, AttributeSet.has]
  cases hfind : a.find? c.code with
  | none => simp
  | some v =>
    cases hstated : v.isStated with
    | false => simp [hstated]
    | true => cases hexpected : c.expected <;> simp [hstated]

namespace LookupRule

variable {rule : LookupRule}

/-- The group of a rule meets exactly the constraints that it grants. -/
theorem holds_group_iff (hnormal : rule.ExpectsNormal) (c : Constraint) :
    c.holds rule.group.attributeSet = true ↔ rule.Grants c := by
  obtain ⟨hanswer, hstated⟩ := answer?_group hnormal c.code
  rw [Constraint.holds_iff, Grants, hanswer]
  constructor
  · rintro ⟨v, hfind, hv, hexpected⟩
    rw [hstated v hfind, bne_iff_ne] at hv
    exact ⟨v.normalForm, by rw [hfind]; rfl, hv, hexpected⟩
  · rintro ⟨text, htext, hne, hexpected⟩
    obtain ⟨v, hfind, rfl⟩ := Option.map_eq_some_iff.1 htext
    exact ⟨v, hfind, by rw [hstated v hfind, bne_iff_ne]; exact hne, hexpected⟩

theorem matchesAttributes_group_iff (hnormal : rule.ExpectsNormal) (other : LookupRule) :
    other.matchesAttributes rule.group.attributeSet = true ↔
      ∀ c ∈ other.constraints, rule.Grants c := by
  rw [matchesAttributes, List.all_eq_true]
  exact forall₂_congr fun c _ => holds_group_iff hnormal c

/-! ## Constraints that a rule implies, and those that a mark meets -/

/-- Where the constraints of the rule are met, this one is. -/
def Implies (rule : LookupRule) (c : Constraint) : Prop :=
  ∃ own ∈ rule.constraints, own.code = c.code ∧ (c.expected = none ∨ own.expected = c.expected)

/-- The group of the rule has a mark that meets the constraint: for an attribute that the rule asks
to be there, or for one that it leaves to its procedures. -/
def Marks (rule : LookupRule) (c : Constraint) : Prop :=
  (c.expected = none ∨ c.expected = some markText) ∧
    ((∃ own ∈ rule.constraints, own.code = c.code ∧ own.expected = none) ∨
      c.code ∈ rule.deferredCodes ∧ ∀ own ∈ rule.constraints, own.code ≠ c.code)

instance (rule : LookupRule) (c : Constraint) : Decidable (rule.Implies c) :=
  inferInstanceAs (Decidable (∃ own ∈ rule.constraints, own.code = c.code ∧
    (c.expected = none ∨ own.expected = c.expected)))

instance (rule : LookupRule) (c : Constraint) : Decidable (rule.Marks c) :=
  inferInstanceAs (Decidable ((c.expected = none ∨ c.expected = some markText) ∧
    ((∃ own ∈ rule.constraints, own.code = c.code ∧ own.expected = none) ∨
      c.code ∈ rule.deferredCodes ∧ ∀ own ∈ rule.constraints, own.code ≠ c.code)))

/-- The rule has one constraint on each attribute that it looks at, and expects no empty text. -/
structure IsPlain (rule : LookupRule) : Prop where
  codes : (rule.constraints.map (·.code)).Nodup
  texts : ∀ c ∈ rule.constraints, c.expected ≠ some ""

theorem answer?_own (h : rule.IsPlain) {own : Constraint} (hown : own ∈ rule.constraints) :
    rule.answer? own.code = some (own.expected.getD markText) := by
  have hlast : rule.lastOn own.code = some own := by
    cases hlast : rule.lastOn own.code with
    | none => simpa using List.find?_eq_none.1 hlast own (List.mem_reverse.2 hown)
    | some k =>
      obtain ⟨hk, hcode⟩ := mem_of_lastOn hlast
      rw [List.inj_on_of_nodup_map h.codes hk hown hcode]
  rw [answer?, hlast]
  rfl

theorem answer?_other {code : String} (hno : ∀ own ∈ rule.constraints, own.code ≠ code) :
    rule.answer? code = if code ∈ rule.deferredCodes then some markText else none := by
  have hlast : rule.lastOn code = none := by simpa [lastOn] using hno
  rw [answer?, hlast]
  rfl

/-- A constraint on an attribute that the rule constrains itself is met by the text that the rule
expects, or else by a mark. -/
theorem grants_own_iff (h : rule.IsPlain) {own c : Constraint} (hown : own ∈ rule.constraints)
    (hcode : own.code = c.code) :
    rule.Grants c ↔ c.expected = none ∨ c.expected = some (own.expected.getD markText) := by
  have hne : own.expected.getD markText ≠ "" := by
    cases hexpected : own.expected with
    | none => decide
    | some expected =>
      intro hempty
      exact h.texts own hown (hexpected.trans (congrArg some hempty))
  rw [Grants, ← hcode, answer?_own h hown]
  cases c.expected with
  | none => simpa using hne
  | some expected => simp [hne, eq_comm]

theorem grants_other_iff {c : Constraint} (hno : ∀ own ∈ rule.constraints, own.code ≠ c.code) :
    rule.Grants c ↔
      c.code ∈ rule.deferredCodes ∧ (c.expected = none ∨ c.expected = some markText) := by
  rw [Grants, answer?_other hno]
  by_cases hdeferred : c.code ∈ rule.deferredCodes
  · have hne : markText ≠ "" := by decide
    cases c.expected with
    | none => simpa [hdeferred] using hne
    | some expected => simp [hdeferred, hne, eq_comm]
  · simp [hdeferred]

/-- The group of a plain rule meets what the rule implies and what its marks meet. -/
theorem IsPlain.grants_iff (h : rule.IsPlain) (c : Constraint) :
    rule.Grants c ↔ rule.Implies c ∨ rule.Marks c := by
  constructor
  · intro hgrants
    -- The group has the rule's own text or mark, and for other attributes those of its procedures.
    by_cases hcode : ∃ own ∈ rule.constraints, own.code = c.code
    · obtain ⟨own, hown, hcode⟩ := hcode
      rcases (grants_own_iff h hown hcode).1 hgrants with hnone | hsome
      · exact Or.inl ⟨own, hown, hcode, Or.inl hnone⟩
      · cases hexpected : own.expected with
        | none =>
          rw [hexpected] at hsome
          exact Or.inr ⟨Or.inr hsome, Or.inl ⟨own, hown, hcode, hexpected⟩⟩
        | some expected =>
          rw [hexpected] at hsome
          exact Or.inl ⟨own, hown, hcode, Or.inr (hexpected.trans hsome.symm)⟩
    · simp only [not_exists, not_and] at hcode
      obtain ⟨hdeferred, hexpected⟩ := (grants_other_iff hcode).1 hgrants
      exact Or.inr ⟨hexpected, Or.inr ⟨hdeferred, hcode⟩⟩
  · rintro (⟨own, hown, hcode, himplies⟩ |
      ⟨hexpected, ⟨own, hown, hcode, hnone⟩ | ⟨hdeferred, hno⟩⟩)
    · refine (grants_own_iff h hown hcode).2 ?_
      cases hexpected : c.expected with
      | none => exact Or.inl rfl
      | some expected =>
        rw [hexpected] at himplies
        exact Or.inr (by rw [himplies.resolve_left (Option.some_ne_none expected)]; rfl)
    · refine (grants_own_iff h hown hcode).2 ?_
      rw [hnone]
      exact hexpected
    · exact (grants_other_iff hno).2 ⟨hdeferred, hexpected⟩

/-- A feature that the rule matches meets what the rule implies. -/
theorem holds_of_implies {c : Constraint} {a : AttributeSet}
    (hmatches : rule.matchesAttributes a = true) (himplies : rule.Implies c) :
    c.holds a = true := by
  obtain ⟨own, hown, hcode, hexpected⟩ := himplies
  rw [matchesAttributes, List.all_eq_true] at hmatches
  obtain ⟨v, hfind, hstated, hown⟩ := Constraint.holds_iff.1 (hmatches own hown)
  rw [hcode] at hfind
  refine Constraint.holds_iff.2 ⟨v, hfind, hstated, fun expected hc => hown expected ?_⟩
  rcases hexpected with hnone | hsame
  · rw [hnone] at hc
    cases hc
  · rw [hsame]
    exact hc

end LookupRule

/-- The texts that a rule expects were brought into their normal form when it was read. -/
theorem LookupRule.expectsNormal_of_ofRecord {record : Value} {index : Int} {rule : LookupRule}
    (h : LookupRule.ofRecord record index = .ok rule) : rule.ExpectsNormal := by
  intro c hc expected hexpected
  obtain ⟨-, v, label, hconstraints⟩ := LookupTable.ofRecord_eq_ok h
  rw [LookupRule.constraintsOf] at hconstraints
  split at hconstraints
  · obtain ⟨⟨code, value⟩, -, rfl⟩ := List.mem_map.1 (Except.ok.inj hconstraints ▸ hc)
    simp only at hexpected
    split at hexpected
    · cases hexpected
    · cases hexpected
      exact Value.normalText_normalForm value
  · cases hconstraints

/-! ## Rules of a table -/

namespace LookupTable

variable {t : LookupTable} {s rule : LookupRule}

/-- The texts that a table expects were brought into their normal form when it was read. -/
theorem expectsNormal_of_ofRecords {records : List Value} (ht : ofRecords records = .ok t) :
    ∀ rule ∈ t.rules, rule.ExpectsNormal := by
  obtain ⟨rules, hread, rfl⟩ := ofRecords_eq_ok_iff.1 ht
  intro rule hrule
  obtain ⟨record, index, hrecord⟩ :=
    exists_ofRecord_of_readRecords hread rule (mem_rules_ofRules.1 hrule)
  exact LookupRule.expectsNormal_of_ofRecord hrecord

/-- The group of `s` has the object class and the table set of the rule, and it meets the
constraints of the rule and those of no rule before it. -/
def StandsFor (t : LookupTable) (s rule : LookupRule) : Prop :=
  rule.objectClass = s.objectClass ∧ rule.tableSet = s.tableSet ∧
    (∀ c ∈ rule.constraints, s.Grants c) ∧ ∀ e ∈ t.earlier rule, ∃ c ∈ e.constraints, ¬ s.Grants c

/-- A plain rule that wins, whose marks meet no constraint of an earlier rule but those that it
implies. -/
structure Faithful (t : LookupTable) (rule : LookupRule) : Prop where
  wins : t.Wins rule
  plain : rule.IsPlain
  marks : ∀ e ∈ t.earlier rule, ∀ c ∈ e.constraints, rule.Marks c → rule.Implies c

/-- Each faithful rule stands for itself: a feature for which it wins meets no rule before it, and
so no rule before it asks only for what the rule implies. -/
theorem Faithful.standsFor (hindex : (t.rulesFor rule.objectClass rule.tableSet).Pairwise
      fun a b => a.index ≠ b.index) (h : t.Faithful rule) : t.StandsFor rule rule := by
  have hmem := h.wins.mem_rulesFor
  obtain ⟨a, ha, hselect⟩ := h.wins
  obtain ⟨hmatches, hearlier⟩ := (select_eq_some_iff hindex hmem ha).1 hselect
  refine ⟨rfl, rfl, ?_, ?_⟩
  · intro c hc
    exact (h.plain.grants_iff c).2 (Or.inl ⟨c, hc, rfl, Or.inr rfl⟩)
  · intro e he
    by_contra hno
    simp only [not_exists, not_and, not_not] at hno
    -- Such a rule would match the feature as well, and be selected in place of this one.
    have hall : e.matchesAttributes a = true := by
      rw [LookupRule.matchesAttributes, List.all_eq_true]
      intro c hc
      rcases (h.plain.grants_iff c).1 (hno c hc) with himplies | hmarks
      · exact LookupRule.holds_of_implies hmatches himplies
      · exact LookupRule.holds_of_implies hmatches (h.marks e he c hc hmarks)
    rw [hearlier e he] at hall
    cases hall

/-- For the group of one rule another one is selected exactly when the group stands for it. -/
theorem select_group_iff {records : List Value} (ht : ofRecords records = .ok t) (hs : s ∈ t.rules)
    (hrule : rule ∈ t.rules) :
    t.select s.group.attributeSet s.tableSet = some rule ↔ t.StandsFor s rule := by
  have hnormal := expectsNormal_of_ofRecords ht s hs
  have hindex := index_nodup_of_ofRecords ht rule.objectClass rule.tableSet
  have key : rule.objectClass = s.objectClass → rule.tableSet = s.tableSet →
      (t.select s.group.attributeSet s.tableSet = some rule ↔
        (∀ c ∈ rule.constraints, s.Grants c) ∧
          ∀ e ∈ t.earlier rule, ∃ c ∈ e.constraints, ¬ s.Grants c) := by
    intro hclass hset
    have hmem : rule ∈ t.rulesFor rule.objectClass rule.tableSet := by
      obtain ⟨rules, -, rfl⟩ := ofRecords_eq_ok_iff.1 ht
      exact mem_rulesFor_ofRules.2 ⟨mem_rules_ofRules.1 hrule, rfl, rfl⟩
    rw [← hset, select_eq_some_iff hindex hmem hclass.symm,
      LookupRule.matchesAttributes_group_iff hnormal]
    refine and_congr Iff.rfl (forall₂_congr fun e _ => ?_)
    rw [← Bool.not_eq_true, LookupRule.matchesAttributes_group_iff hnormal]
    simp
  constructor
  · intro hselect
    obtain ⟨rules, -, rfl⟩ := ofRecords_eq_ok_iff.1 ht
    obtain ⟨-, hclass, hset⟩ := mem_rulesFor_ofRules.1 (mem_rulesFor_of_select hselect)
    exact ⟨hclass, hset, (key hclass hset).1 hselect⟩
  · rintro ⟨hclass, hset, hstands⟩
    exact (key hclass hset).2 hstands

/-- The rule that is drawn at a place of the derived catalog. -/
def drawnAt (t : LookupTable) (i : Nat) : Option LookupRule :=
  (Catalog.ofTable t)[i]?.bind fun f : Feature => t.select f.attributeSet f.tableSet

theorem drawnAt_eq_some_iff {i : Nat} :
    t.drawnAt i = some rule ↔
      ∃ s, t.rules[i]? = some s ∧ t.select s.group.attributeSet s.tableSet = some rule := by
  rw [drawnAt, Catalog.ofTable, List.getElem?_map, Option.bind_map, Option.bind_eq_some_iff]
  rfl

/-- Which rule is selected for the group of a rule is known from the rules alone: the one that the
group stands for. A faithful rule is selected for its own group. Where all rules of an object class
and a table set are faithful, each of them is drawn at one place of the derived catalog. -/
theorem select_group {records : List Value} (ht : ofRecords records = .ok t) :
    (∀ s ∈ t.rules, ∀ rule ∈ t.rules,
      t.select s.group.attributeSet s.tableSet = some rule ↔ t.StandsFor s rule) ∧
    (∀ rule, t.Faithful rule → t.select rule.group.attributeSet rule.tableSet = some rule) ∧
    ∀ rule ∈ t.rules, (∀ s ∈ t.rules, key s = key rule → t.Faithful s) →
      ∃! i, t.drawnAt i = some rule := by
  have hself : ∀ rule, t.Faithful rule →
      t.select rule.group.attributeSet rule.tableSet = some rule := by
    intro rule h
    have hmem := mem_rules_of_mem_rulesFor h.wins.mem_rulesFor
    exact (select_group_iff ht hmem hmem).2 (h.standsFor (index_nodup_of_ofRecords ht _ _))
  refine ⟨fun s hs rule hrule => select_group_iff ht hs hrule, hself, ?_⟩
  intro rule hrule hfaithful
  obtain ⟨i, hi⟩ := List.mem_iff_getElem?.1 hrule
  refine ⟨i, drawnAt_eq_some_iff.2 ⟨rule, hi, hself rule (hfaithful rule hrule rfl)⟩, ?_⟩
  intro j hj
  -- The rule at any such place stands for this one, so it is faithful, and then it is this one.
  obtain ⟨s, hs, hselect⟩ := drawnAt_eq_some_iff.1 hj
  have hmem := List.mem_of_getElem? hs
  obtain ⟨hclass, hset, -⟩ := (select_group_iff ht hmem hrule).1 hselect
  have hkey : key s = key rule := Prod.ext hclass.symm hset.symm
  rw [hself s (hfaithful s hmem hkey), Option.some.injEq] at hselect
  subst hselect
  obtain ⟨hlt, -⟩ := List.getElem?_eq_some_iff.1 hs
  exact (List.getElem?_inj hlt (nodup_rules_of_ofRecords ht)).1 (hs.trans hi.symm)

/-! ## Obstructions -/

/-- The record of a rule for obstructions that are drawn as lines. -/
def obstructionRecord (attributes : List (String × Value)) (instruction : String) : Value :=
  .ofFields [("object_class", .text "OBSTRN"), ("table_set", .text "LINES"),
    ("attributes", .ofFields attributes), ("instruction", .text instruction),
    ("priority", .int 4)]

/-- The rule of such a record. -/
def obstructionRule (index : Int) (constraints : List Constraint) (instruction : String)
    (calls : List Call) : LookupRule :=
  { objectClass := "OBSTRN", tableSet := .lines, constraints, instruction, priority := 4
    category := .standard, viewingGroup := 0, index, calls }

theorem rulesFor_obstructions {rules : List LookupRule}
    (hkey : ∀ r ∈ rules, key r = ("OBSTRN", .lines))
    (hsorted : rules.Pairwise fun a b => precedes a b = true) :
    (ofRules rules).rulesFor "OBSTRN" .lines = rules := by
  rw [rulesFor_ofRules, List.filter_eq_self.2 fun r hr => by rw [hkey r hr]; decide,
    List.mergeSort_of_pairwise hsorted]

/-- A rule for obstructions of known depth, and one that leaves all others to their procedure. -/
def capturedRecords : List Value :=
  [obstructionRecord [("VALSOU", .null)] "LS(SOLD,1,CHBLK)", obstructionRecord [] "CS(OBSTRN04)"]

/-- The rule for obstructions of known depth. -/
def soundedRule : LookupRule :=
  obstructionRule 0 [⟨"VALSOU", none⟩] "LS(SOLD,1,CHBLK)"
    [⟨.ls, [.text "SOLD", .int 1, .text "CHBLK"]⟩]

/-- The rule for all others. -/
def unsoundedRule : LookupRule :=
  obstructionRule 1 [] "CS(OBSTRN04)" [⟨.cs, [.text "OBSTRN04"]⟩]

set_option maxRecDepth 10000 in
theorem ofRecords_capturedRecords :
    ofRecords capturedRecords = .ok (ofRules [soundedRule, unsoundedRule]) := by
  have hread : readRecords 0 capturedRecords = .ok [soundedRule, unsoundedRule] := by
    with_unfolding_all rfl
  exact ofRecords_eq_ok_iff.2 ⟨_, hread, rfl⟩

/-- An obstruction without a depth is drawn by the second rule. But the group of that rule has a
mark for the depth, which its procedure asks for, and the mark meets the first rule. -/
theorem select_group_captured :
    ofRecords capturedRecords = .ok (ofRules [soundedRule, unsoundedRule]) ∧
      (∀ code, (AttributeSet.mk "OBSTRN" []).isPerFeature code = false) ∧
      (ofRules [soundedRule, unsoundedRule]).select ⟨"OBSTRN", []⟩ .lines = some unsoundedRule ∧
      (ofRules [soundedRule, unsoundedRule]).select unsoundedRule.group.attributeSet .lines =
        some soundedRule ∧
      soundedRule ≠ unsoundedRule := by
  have hrules : (ofRules [soundedRule, unsoundedRule]).rulesFor "OBSTRN" .lines =
      [soundedRule, unsoundedRule] := rulesFor_obstructions (by decide) (by decide)
  refine ⟨ofRecords_capturedRecords, fun code => rfl, ?_, ?_, fun h => ?_⟩
  · rw [select, hrules]
    rfl
  · have hmark : soundedRule.matchesAttributes unsoundedRule.group.attributeSet = true := by
      decide +kernel
    have hclass : unsoundedRule.group.attributeSet.objectClass = "OBSTRN" := rfl
    rw [select, hclass, hrules]
    exact List.find?_cons_of_pos hmark
  · exact absurd (congrArg LookupRule.index h) (by decide)

/-- A rule for foul areas of known depth, one that leaves the other obstructions of known depth to
their procedure, and one for all obstructions. -/
def foulRecords : List Value :=
  [obstructionRecord [("CATOBS", .int 6), ("VALSOU", .null)] "LS(SOLD,1,CHBLK)",
    obstructionRecord [("VALSOU", .null)] "CS(OBSTRN04)", obstructionRecord [] ""]

/-- The rules of these records. -/
def foulRules : List LookupRule :=
  [obstructionRule 0 [⟨"CATOBS", some "6"⟩, ⟨"VALSOU", none⟩] "LS(SOLD,1,CHBLK)"
      [⟨.ls, [.text "SOLD", .int 1, .text "CHBLK"]⟩],
    obstructionRule 1 [⟨"VALSOU", none⟩] "CS(OBSTRN04)" [⟨.cs, [.text "OBSTRN04"]⟩],
    obstructionRule 2 [] "" []]

set_option maxRecDepth 10000 in
theorem ofRecords_foulRecords : ofRecords foulRecords = .ok (ofRules foulRules) := by
  have hread : readRecords 0 foulRecords = .ok foulRules := by with_unfolding_all rfl
  exact ofRecords_eq_ok_iff.2 ⟨_, hread, rfl⟩

theorem rulesFor_foulRules : (ofRules foulRules).rulesFor "OBSTRN" .lines = foulRules :=
  rulesFor_obstructions (by decide) (by decide)

theorem wins_foulRules : ∀ rule ∈ foulRules, (ofRules foulRules).Wins rule := by
  have hfind : ∀ rule ∈ foulRules, ∃ a : AttributeSet, a.objectClass = "OBSTRN" ∧
      foulRules.find? (·.matchesAttributes a) = some rule := by
    simp only [foulRules, List.forall_mem_cons, List.not_mem_nil, false_implies, implies_true,
      and_true]
    refine ⟨⟨⟨"OBSTRN", [("CATOBS", .int 6), ("VALSOU", .int 2)]⟩, rfl, ?_⟩,
      ⟨⟨"OBSTRN", [("VALSOU", .int 2)]⟩, rfl, ?_⟩, ⟨⟨"OBSTRN", []⟩, rfl, ?_⟩⟩
    · exact List.find?_cons_of_pos (by decide +kernel)
    · rfl
    · rfl
  intro rule hrule
  obtain ⟨a, ha, hfind⟩ := hfind rule hrule
  have hkey : ∀ rule ∈ foulRules, rule.objectClass = "OBSTRN" ∧ rule.tableSet = .lines := by decide
  obtain ⟨hclass, hset⟩ := hkey rule hrule
  refine ⟨a, ha.trans hclass.symm, ?_⟩
  rw [select, ha, hset, rulesFor_foulRules]
  exact hfind

theorem faithful_foulRules : ∀ rule ∈ foulRules, (ofRules foulRules).Faithful rule := by
  intro rule hrule
  have hcodes : ∀ rule ∈ foulRules, (rule.constraints.map (·.code)).Nodup := by decide
  have htexts : ∀ rule ∈ foulRules, ∀ c ∈ rule.constraints, c.expected ≠ some "" := by decide
  have hmarks : ∀ rule ∈ foulRules, ∀ e ∈ foulRules.takeWhile (·.index != rule.index),
      ∀ c ∈ e.constraints, rule.Marks c → rule.Implies c := by decide +kernel
  have hkey : ∀ rule ∈ foulRules, rule.objectClass = "OBSTRN" ∧ rule.tableSet = .lines := by decide
  obtain ⟨hclass, hset⟩ := hkey rule hrule
  refine ⟨wins_foulRules rule hrule, ⟨hcodes rule hrule, htexts rule hrule⟩, ?_⟩
  rw [earlier, hclass, hset, rulesFor_foulRules]
  exact hmarks rule hrule

/-- Each of the three rules is drawn once. -/
theorem select_group_foulRecords :
    ofRecords foulRecords = .ok (ofRules foulRules) ∧
      ∀ rule ∈ foulRules, ∃! i, (ofRules foulRules).drawnAt i = some rule := by
  obtain ⟨-, -, honce⟩ := select_group ofRecords_foulRecords
  refine ⟨ofRecords_foulRecords, fun rule hrule => honce rule (mem_rules_ofRules.2 hrule) ?_⟩
  exact fun s hs _ => faithful_foulRules s (mem_rules_ofRules.1 hs)

end LookupTable

end ChartStyle
