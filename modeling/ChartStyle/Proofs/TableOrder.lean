import ChartStyle.Catalog
import ChartStyle.Proofs.RecordFaults
import ChartStyle.Proofs.UpperCase
import Mathlib.Data.List.Pairwise

/-!
# The order of a table

The rules of a table stand group by group. Those of one object class and table set are together, in
canonical order (`standTogether`), and groups follow each other in the order in which their first
rules stand in the file (`rules_leadBefore`). The catalog that is derived from a table has a group
of features for each rule in this order; the object class of a rule was normal when it was read, so
the group keeps it (`isGroup_group`). Together with one rule for each record this is
`rules_arranged`.
-/

set_option autoImplicit false

namespace ChartStyle

namespace LookupTable

/-! ## Rules of one group -/

/-- Of two rules of a group one goes before the other when it has more constraints, or as many and
an earlier place in the file. -/
def GoesBefore (a b : LookupRule) : Prop :=
  b.constraints.length < a.constraints.length ∨
    (a.constraints.length = b.constraints.length ∧ a.index < b.index)

/-- Behind a rule without constraints there are only such rules. -/
theorem GoesBefore.eq_nil {a b : LookupRule} (h : GoesBefore a b) (ha : a.constraints = []) :
    b.constraints = [] := by
  rw [GoesBefore, ha, List.length_nil] at h
  rw [← List.length_eq_zero_iff]
  omega

variable {records : List Value} {rules : List LookupRule} {t : LookupTable}

theorem rulesFor_goesBefore (ht : ofRecords records = .ok t) (objectClass : String)
    (tableSet : TableSet) : (t.rulesFor objectClass tableSet).Pairwise GoesBefore := by
  have hindex := index_nodup_of_ofRecords ht objectClass tableSet
  obtain ⟨rules, -, rfl⟩ := ofRecords_eq_ok_iff.1 ht
  rw [rulesFor_ofRules] at hindex ⊢
  have hsorted := List.pairwise_mergeSort precedes_trans precedes_total
    (rules.filter fun r => key r == (objectClass, tableSet))
  -- Sorting alone allows equal places; that the places differ makes the order strict.
  refine (hsorted.and hindex).imp fun {a b} h => ?_
  obtain ⟨hprecedes, hne⟩ := h
  rw [precedes_iff] at hprecedes
  rw [GoesBefore]
  omega

/-! ## Groups of a table -/

/-- The first rule of a rule's group. -/
def leader? (t : LookupTable) (rule : LookupRule) : Option LookupRule :=
  (t.rulesFor rule.objectClass rule.tableSet).head?

/-- The first rule of the one group stands in the file before that of the other. -/
def LeadsBefore (t : LookupTable) (a b : LookupRule) : Prop :=
  ∃ first first', t.leader? a = some first ∧ t.leader? b = some first' ∧
    first.index < first'.index

/-- The key of a group, which all its rules have. -/
def RuleGroup.key (g : RuleGroup) : String × TableSet := (g.objectClass, g.tableSet)

theorem key_of_mem_group {g : RuleGroup} {rule : LookupRule} (hg : g ∈ (ofRules rules).groups)
    (hrule : rule ∈ g.rules) : key rule = RuleGroup.key g := by
  obtain ⟨r, -, rfl⟩ := mem_groups_ofRules.1 hg
  exact eq_of_beq (List.mem_filter.1 (List.mem_mergeSort.1 hrule)).2

theorem rules_groupOf (k : String × TableSet) :
    (groupOf rules k).rules = (ofRules rules).rulesFor k.1 k.2 :=
  (rulesFor_ofRules rules k.1 k.2).symm

theorem pairwise_keys_ofRules (rules : List LookupRule) :
    (ofRules rules).groups.Pairwise fun g h => RuleGroup.key g ≠ RuleGroup.key h := by
  have hperm := ((distinct (rules.map key)).map (groupOf rules)).mergeSort_perm
    fun g h => decide (RuleGroup.position g ≤ RuleGroup.position h)
  -- Sorting keeps that keys differ, since to differ is symmetric.
  refine (hperm.pairwise_iff fun hne => hne.symm).2 ?_
  rw [List.pairwise_map]
  exact nodup_distinct _

theorem pairwise_positions_ofRules (rules : List LookupRule) :
    (ofRules rules).groups.Pairwise fun g h => RuleGroup.position g ≤ RuleGroup.position h := by
  have hsorted : (ofRules rules).groups.Pairwise fun g h =>
      decide (RuleGroup.position g ≤ RuleGroup.position h) = true := by
    apply List.pairwise_mergeSort
    · intro g h k hgh hhk
      exact decide_eq_true (Int.le_trans (of_decide_eq_true hgh) (of_decide_eq_true hhk))
    · intro g h
      rw [Bool.or_eq_true, decide_eq_true_iff, decide_eq_true_iff]
      exact Int.le_total _ _
  exact hsorted.imp of_decide_eq_true

/-- A group of the table has a first rule, and it stands in the file where the group says. -/
theorem exists_head_of_mem_groups {g : RuleGroup} (hg : g ∈ (ofRules rules).groups) :
    ∃ first ∈ rules, g.rules.head? = some first ∧ key first = RuleGroup.key g ∧
      RuleGroup.position g = first.index := by
  obtain ⟨r, hr, rfl⟩ := mem_groups_ofRules.1 hg
  have hmem : r ∈ (groupOf rules (key r)).rules :=
    List.mem_mergeSort.2 (List.mem_filter.2 ⟨hr, beq_self_eq_true (key r)⟩)
  cases hhead : (groupOf rules (key r)).rules.head? with
  | none =>
    rw [List.head?_eq_none_iff.1 hhead] at hmem
    exact absurd hmem List.not_mem_nil
  | some first =>
    have hfirst : first ∈ (groupOf rules (key r)).rules := List.mem_of_mem_head? hhead
    refine ⟨first, (List.mem_filter.1 (List.mem_mergeSort.1 hfirst)).1, rfl,
      key_of_mem_group hg hfirst, ?_⟩
    rw [RuleGroup.position, hhead]
    rfl

/-- The leader of a rule is the first one of the group that the rule stands in. -/
theorem leader?_of_mem_group {g : RuleGroup} {rule : LookupRule} (hg : g ∈ (ofRules rules).groups)
    (hrule : rule ∈ g.rules) : (ofRules rules).leader? rule = g.rules.head? := by
  have hkey := key_of_mem_group hg hrule
  obtain ⟨r, -, rfl⟩ := mem_groups_ofRules.1 hg
  rw [rules_groupOf]
  exact congrArg (fun k : String × TableSet => ((ofRules rules).rulesFor k.1 k.2).head?) hkey

/-- Rules of different groups stand in the order of the first rules of these groups. -/
theorem rules_leadBefore (ht : ofRecords records = .ok t) :
    t.rules.Pairwise fun a b => key a ≠ key b → t.LeadsBefore a b := by
  obtain ⟨rules, hread, rfl⟩ := ofRecords_eq_ok_iff.1 ht
  rw [LookupTable.rules, List.pairwise_flatMap]
  constructor
  · intro g hg
    refine List.pairwise_of_forall_mem_list fun a ha b hb hne => absurd ?_ hne
    rw [key_of_mem_group hg ha, key_of_mem_group hg hb]
  · refine ((pairwise_keys_ofRules rules).and (pairwise_positions_ofRules rules)).imp_of_mem ?_
    rintro g h hg hh ⟨hne, hle⟩ a ha b hb -
    obtain ⟨first, hfirst, hhead, hkey, hposition⟩ := exists_head_of_mem_groups hg
    obtain ⟨first', hfirst', hhead', hkey', hposition'⟩ := exists_head_of_mem_groups hh
    refine ⟨first, first', (leader?_of_mem_group hg ha).trans hhead,
      (leader?_of_mem_group hh hb).trans hhead', ?_⟩
    -- The first rules are two rules, so they stand in two places.
    have hindex : first.index ≠ first'.index := by
      intro heq
      rw [← hkey, ← hkey', eq_of_index_eq hread hfirst hfirst' heq] at hne
      exact hne rfl
    rw [hposition, hposition'] at hle
    omega

/-- The rules of an object class and a table set are together in the table, in canonical order, and
those without constraints last. -/
structure StandTogether (t : LookupTable) (objectClass : String) (tableSet : TableSet) : Prop where
  together : ∃ before after, t.rules = before ++ t.rulesFor objectClass tableSet ++ after ∧
    ∀ rule ∈ before ++ after, key rule ≠ (objectClass, tableSet)
  own : ∀ rule ∈ t.rulesFor objectClass tableSet, key rule = (objectClass, tableSet)
  canonical : (t.rulesFor objectClass tableSet).Pairwise GoesBefore
  unconstrainedLast : (t.rulesFor objectClass tableSet).Pairwise fun a b =>
    a.constraints = [] → b.constraints = []

/-- The groups before and behind the group of a key are those of other keys. -/
theorem key_ne_of_groups_eq {before after : List RuleGroup} {g : RuleGroup}
    (h : (ofRules rules).groups = before ++ g :: after) :
    ∀ other ∈ before ++ after, RuleGroup.key other ≠ RuleGroup.key g := by
  have hkeys := pairwise_keys_ofRules rules
  rw [h, List.pairwise_append, List.pairwise_cons] at hkeys
  obtain ⟨-, ⟨hafter, -⟩, hbefore⟩ := hkeys
  rw [List.forall_mem_append]
  exact ⟨fun other hother => hbefore other hother g List.mem_cons_self,
    fun other hother => (hafter other hother).symm⟩

theorem exists_rulesFor_together (rules : List LookupRule) (objectClass : String)
    (tableSet : TableSet) : ∃ before after,
      (ofRules rules).rules = before ++ (ofRules rules).rulesFor objectClass tableSet ++ after ∧
        ∀ rule ∈ before ++ after, key rule ≠ (objectClass, tableSet) := by
  by_cases hown : ∃ r ∈ rules, key r = (objectClass, tableSet)
  · obtain ⟨r, hr, hkey⟩ := hown
    have hg := mem_groups_ofRules.2 ⟨r, hr, rfl⟩
    rw [hkey] at hg
    obtain ⟨before, after, hsplit⟩ := List.append_of_mem hg
    refine ⟨before.flatMap (·.rules), after.flatMap (·.rules), ?_, fun rule hrule => ?_⟩
    · rw [LookupTable.rules, hsplit, List.flatMap_append, List.flatMap_cons, List.append_assoc,
        rules_groupOf]
    · rw [← List.flatMap_append] at hrule
      obtain ⟨other, hother, hmem⟩ := List.mem_flatMap.1 hrule
      have hgroup : other ∈ (ofRules rules).groups := by
        rw [hsplit]
        exact ((List.sublist_cons_self _ after).append_left before).subset hother
      rw [key_of_mem_group hgroup hmem]
      exact key_ne_of_groups_eq hsplit other hother
  -- Without such a rule there is nothing to stand together.
  · have hnil : (ofRules rules).rulesFor objectClass tableSet = [] := by
      refine List.eq_nil_iff_forall_not_mem.2 fun rule hrule => hown ?_
      obtain ⟨hmem, hclass, hset⟩ := mem_rulesFor_ofRules.1 hrule
      exact ⟨rule, hmem, Prod.ext hclass hset⟩
    refine ⟨(ofRules rules).rules, [], ?_, fun rule hrule hkey => hown ⟨rule, ?_, hkey⟩⟩
    · rw [hnil, List.append_nil, List.append_nil]
    · rw [List.append_nil] at hrule
      exact mem_rules_ofRules.1 hrule

theorem standTogether (ht : ofRecords records = .ok t) (objectClass : String)
    (tableSet : TableSet) : t.StandTogether objectClass tableSet := by
  have hcanonical := rulesFor_goesBefore ht objectClass tableSet
  obtain ⟨rules, -, rfl⟩ := ofRecords_eq_ok_iff.1 ht
  exact {
    together := exists_rulesFor_together rules objectClass tableSet
    own := fun rule hrule => Prod.ext (mem_rulesFor_ofRules.1 hrule).2.1
      (mem_rulesFor_ofRules.1 hrule).2.2
    canonical := hcanonical
    unconstrainedLast := hcanonical.imp fun h => h.eq_nil }

end LookupTable

/-! ## The derived catalog -/

theorem TableSet.parse_name (tableSet : TableSet) : parse (.text tableSet.name) = .ok tableSet := by
  cases tableSet <;> cbv

theorem AttributeSet.entriesOf_ofFields (fields : List (String × Value)) :
    entriesOf (.ofFields fields) = .ok fields := by
  cases fields with
  | nil => rfl
  | cons field fields =>
    show Except.ok (((field :: fields).map fun f => (Value.text f.1, f.2)).map
      fun entry => (entry.1.keyName, entry.2)) = _
    rw [List.map_map]
    exact congrArg Except.ok (List.map_id _)

namespace LookupRule

/-- A feature group has the object class and the table set of the rule, and it is what is made of
these and of the attributes of the rule's group as of any feature. -/
structure IsGroup (rule : LookupRule) (f : Feature) : Prop where
  objectClass : f.objectClass = rule.objectClass
  tableSet : f.tableSet = rule.tableSet
  made : Feature.ofValues (.text rule.objectClass) (.text rule.tableSet.name)
    (.ofFields rule.groupAttributes) .null = .ok f

theorem Header.objectClass_of_ofEntries {entries : Entries} {header : Header}
    (h : ofEntries entries = .ok header) :
    ∃ v : Value, header.objectClass = Text.upper (Text.trimmed v.plain) := by
  rw [ofEntries] at h
  obtain ⟨objectClass, -, h⟩ := except_bind_eq_ok_iff.1 h
  -- The six readings that follow are of other fields.
  iterate 6 obtain ⟨_, -, h⟩ := except_bind_eq_ok_iff.1 h
  exact ⟨objectClass, (congrArg Header.objectClass (Except.ok.inj h)).symm⟩

/-- The object class of a rule was trimmed and brought into upper case when it was read. -/
theorem objectClass_of_ofRecord {record : Value} {index : Int} {rule : LookupRule}
    (h : ofRecord record index = .ok rule) :
    Text.upper (Text.trimmed rule.objectClass) = rule.objectClass := by
  rw [ofRecord] at h
  obtain ⟨entries, -, h⟩ := except_bind_eq_ok_iff.1 h
  obtain ⟨header, hheader, h⟩ := except_bind_eq_ok_iff.1 h
  obtain ⟨constraints, -, h⟩ := except_bind_eq_ok_iff.1 h
  obtain ⟨calls, -, h⟩ := except_bind_eq_ok_iff.1 h
  obtain ⟨v, hv⟩ := Header.objectClass_of_ofEntries (blame_eq_ok_iff.1 hheader)
  have hclass : rule.objectClass = header.objectClass :=
    (congrArg LookupRule.objectClass (Except.ok.inj h)).symm
  rw [hclass, hv, Text.upper_trimmed_of_upper_trimmed]

/-- Making a feature of the object class changes nothing in it. -/
theorem isGroup_group {rule : LookupRule}
    (h : Text.upper (Text.trimmed rule.objectClass) = rule.objectClass) :
    rule.IsGroup rule.group := by
  refine ⟨rfl, rfl, ?_⟩
  rw [Feature.ofValues, TableSet.parse_name, AttributeSet.entriesOf_ofFields]
  show Except.ok (Feature.mk (Text.upper (Text.trimmed rule.objectClass)) _ _ _) = _
  rw [h]
  rfl

end LookupRule

namespace LookupTable

/-- A table has one rule for each record, and each rule says where its record stands in the file.
The rules of an object class and a table set stand together in canonical order, the groups follow
each other by the places of their first rules, and the derived catalog has a feature group for each
rule in the same order, with the rule's object class and table set. -/
theorem rules_arranged {records : List Value} {t : LookupTable} (ht : ofRecords records = .ok t) :
    t.HasRuleOfEach records ∧
      (∀ rule ∈ t.rules, ∃ place : Nat, rule.index = place ∧ ReadsAt records place rule) ∧
      (∀ objectClass tableSet, t.StandTogether objectClass tableSet) ∧
      (t.rules.Pairwise fun a b => key a ≠ key b → t.LeadsBefore a b) ∧
      List.Forall₂ LookupRule.IsGroup t.rules (Catalog.ofTable t) := by
  refine ⟨hasRuleOfEach_of_ofRecords ht, ?_, standTogether ht, rules_leadBefore ht, ?_⟩
  all_goals obtain ⟨rules, hread, rfl⟩ := ofRecords_eq_ok_iff.1 ht
  · intro rule hrule
    obtain ⟨place, hplace⟩ := (mem_iff_readsAt hread).1 (mem_rules_ofRules.1 hrule)
    exact ⟨place, hplace.index_eq, hplace⟩
  · refine List.forall₂_map_right_iff.2 (List.forall₂_same.2 fun rule hrule => ?_)
    obtain ⟨record, index, hrecord⟩ :=
      exists_ofRecord_of_readRecords hread rule (mem_rules_ofRules.1 hrule)
    exact LookupRule.isGroup_group (LookupRule.objectClass_of_ofRecord hrecord)

/-! ## Buoys around an obstruction -/

/-- Records for all lateral buoys, for obstructions of known depth, and for buoys with a category. -/
def crossedRecords : List Value :=
  [.ofFields [("object_class", .text " boylat"), ("table_set", .text "point"), ("priority", .int 8)],
    obstructionRecord [("VALSOU", .null)] "",
    .ofFields [("object_class", .text "BOYLAT"), ("table_set", .text "POINTS"),
      ("attributes", .ofFields [("CATLAM", .null)]), ("priority", .int 8)]]

/-- The rule for obstructions of known depth. -/
def crossingRule : LookupRule := obstructionRule 1 [⟨"VALSOU", none⟩] "" []

/-- The rules of the records. -/
def crossedRules : List LookupRule :=
  [lateralRule 0 [], crossingRule, lateralRule 2 [⟨"CATLAM", none⟩]]

/-- The rules in the order of the table. -/
def arrangedRules : List LookupRule :=
  [crossingRule, lateralRule 2 [⟨"CATLAM", none⟩], lateralRule 0 []]

/-- The buoys come first in the file, but not the rule that leads them, so the obstructions come
first in the table. -/
theorem rules_arranged_crossedRecords :
    ofRecords crossedRecords = .ok (ofRules crossedRules) ∧
      (ofRules crossedRules).rules = arrangedRules ∧
      (ofRules crossedRules).HasRuleOfEach crossedRecords ∧
      (ofRules crossedRules).StandTogether "BOYLAT" .points ∧
      (ofRules crossedRules).LeadsBefore crossingRule (lateralRule 0 []) ∧
      List.Forall₂ LookupRule.IsGroup arrangedRules (Catalog.ofTable (ofRules crossedRules)) := by
  have hread : readRecords 0 crossedRecords = .ok crossedRules := by cbv
  have hrules : (ofRules crossedRules).rules = arrangedRules := by cbv
  have htable : ofRecords crossedRecords = .ok (ofRules crossedRules) :=
    ofRecords_eq_ok_iff.2 ⟨crossedRules, hread, rfl⟩
  obtain ⟨heach, -, htogether, hleads, hgroups⟩ := rules_arranged htable
  rw [hrules] at hleads hgroups
  have hfirst := (List.pairwise_cons.1 hleads).1
  exact ⟨htable, hrules, heach, htogether _ _,
    hfirst _ (by simp) (by decide), hgroups⟩

end LookupTable

end ChartStyle
