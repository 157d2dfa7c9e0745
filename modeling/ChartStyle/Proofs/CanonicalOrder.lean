import ChartStyle.Lookup.Table
import ChartStyle.Proofs.Outcomes
import Mathlib.Data.List.Nodup

/-!
# The rules of a table in canonical order

A table is built by grouping, by sorting each group and by sorting the groups. For the rules of one
object class and table set that comes to one filter and one sort of the list of all rules
(`rulesFor_ofRules`): no rule is lost and none is added (`mem_rulesFor_ofRules`). The rules that
are read from records carry their places in the file (`index_lt_of_readRecords`), so no two rules
of a group share an index (`index_nodup_of_ofRecords`), and a rule is selected exactly where it
matches and none before it does (`select_eq_some_iff`).
-/

set_option autoImplicit false

namespace ChartStyle

theorem LookupRule.blame_eq_ok_iff {α : Type} {label : String} {outcome : Except Fault α} {a : α} :
    blame label outcome = .ok a ↔ outcome = .ok a := by
  unfold blame
  repeat' split
  all_goals simp_all

namespace LookupTable

/-! ## Groups -/

theorem mem_distinct {α : Type} [BEq α] [LawfulBEq α] {xs : List α} {x : α} :
    x ∈ distinct xs ↔ x ∈ xs := by
  -- The fold keeps what it has seen and adds what is still to come.
  have key : ∀ (xs seen : List α),
      x ∈ xs.foldl (fun seen x => if seen.contains x then seen else seen ++ [x]) seen ↔
        x ∈ seen ∨ x ∈ xs := by
    intro xs
    induction xs with
    | nil => intro seen; simp
    | cons y ys ih =>
      intro seen
      rw [List.foldl_cons, ih]
      by_cases hy : seen.contains y
      · rw [if_pos hy]
        have hmem : y ∈ seen := List.contains_iff_mem.1 hy
        constructor
        · rintro (h | h)
          · exact Or.inl h
          · exact Or.inr (List.mem_cons_of_mem y h)
        · rintro (h | h)
          · exact Or.inl h
          · rcases List.mem_cons.1 h with rfl | h
            · exact Or.inl hmem
            · exact Or.inr h
      · rw [if_neg hy]
        rw [List.mem_append, List.mem_singleton, List.mem_cons, or_assoc]
  rw [distinct, key, List.mem_nil_iff, false_or]

theorem nodup_distinct {α : Type} [BEq α] [LawfulBEq α] (xs : List α) : (distinct xs).Nodup := by
  have key : ∀ (xs seen : List α), seen.Nodup →
      (xs.foldl (fun seen x => if seen.contains x then seen else seen ++ [x]) seen).Nodup := by
    intro xs
    induction xs with
    | nil => exact fun seen hseen => hseen
    | cons y ys ih =>
      intro seen hseen
      rw [List.foldl_cons]
      refine ih _ ?_
      by_cases hy : seen.contains y
      · simpa only [if_pos hy] using hseen
      · simp only [if_neg hy]
        refine hseen.append (List.nodup_singleton y) ?_
        rw [List.disjoint_singleton]
        exact fun hmem => hy (List.contains_iff_mem.2 hmem)
  exact key xs [] List.nodup_nil

theorem mem_groups_ofRules {rules : List LookupRule} {g : RuleGroup} :
    g ∈ (ofRules rules).groups ↔ ∃ r ∈ rules, g = groupOf rules (key r) := by
  rw [ofRules, List.mem_mergeSort, List.mem_map]
  constructor
  · rintro ⟨k, hk, rfl⟩
    obtain ⟨r, hr, rfl⟩ := List.mem_map.1 (mem_distinct.1 hk)
    exact ⟨r, hr, rfl⟩
  · rintro ⟨r, hr, rfl⟩
    exact ⟨key r, mem_distinct.2 (List.mem_map_of_mem hr), rfl⟩

/-- The rules of one object class and table set are its members of the list, sorted. -/
theorem rulesFor_ofRules (rules : List LookupRule) (objectClass : String) (tableSet : TableSet) :
    (ofRules rules).rulesFor objectClass tableSet =
      (rules.filter fun r => key r == (objectClass, tableSet)).mergeSort precedes := by
  rw [rulesFor]
  cases hfind : (ofRules rules).groups.find?
      fun g => g.objectClass == objectClass && g.tableSet == tableSet with
  | some g =>
    obtain ⟨r, -, rfl⟩ := mem_groups_ofRules.1 (List.mem_of_find?_eq_some hfind)
    have hkey := List.find?_some hfind
    simp only [Bool.and_eq_true, beq_iff_eq] at hkey
    obtain ⟨rfl, rfl⟩ := hkey
    rfl
  | none =>
    -- Without a group no rule of the list has the object class and the table set.
    have hnone : (rules.filter fun r => key r == (objectClass, tableSet)) = [] := by
      rw [List.filter_eq_nil_iff]
      intro r hr hkey
      have hno := List.find?_eq_none.1 hfind _ (mem_groups_ofRules.2 ⟨r, hr, rfl⟩)
      rw [beq_iff_eq] at hkey
      rw [hkey] at hno
      simp [groupOf] at hno
    rw [hnone, List.mergeSort_nil]

theorem mem_rulesFor_ofRules {rules : List LookupRule} {objectClass : String}
    {tableSet : TableSet} {r : LookupRule} :
    r ∈ (ofRules rules).rulesFor objectClass tableSet ↔
      r ∈ rules ∧ r.objectClass = objectClass ∧ r.tableSet = tableSet := by
  rw [rulesFor_ofRules, List.mem_mergeSort, List.mem_filter, beq_iff_eq, key, Prod.mk.injEq]

theorem mem_rules_ofRules {rules : List LookupRule} {r : LookupRule} :
    r ∈ (ofRules rules).rules ↔ r ∈ rules := by
  rw [LookupTable.rules, List.mem_flatMap]
  constructor
  · rintro ⟨g, hg, hr⟩
    obtain ⟨r', -, rfl⟩ := mem_groups_ofRules.1 hg
    exact (List.mem_filter.1 (List.mem_mergeSort.1 hr)).1
  · intro hr
    refine ⟨groupOf rules (key r), mem_groups_ofRules.2 ⟨r, hr, rfl⟩, ?_⟩
    exact List.mem_mergeSort.2 (List.mem_filter.2 ⟨hr, beq_self_eq_true (key r)⟩)

theorem mem_rules_of_mem_rulesFor {t : LookupTable} {objectClass : String} {tableSet : TableSet}
    {r : LookupRule} (h : r ∈ t.rulesFor objectClass tableSet) : r ∈ t.rules := by
  rw [rulesFor] at h
  split at h
  · next g hg => exact List.mem_flatMap.2 ⟨g, List.mem_of_find?_eq_some hg, h⟩
  · cases h

/-! ## Places in the file -/

/-- A rule is read with its place in the file, and with constraints of their own reader. -/
theorem ofRecord_eq_ok {record : Value} {index : Int} {r : LookupRule}
    (h : LookupRule.ofRecord record index = .ok r) :
    r.index = index ∧ ∃ v label, LookupRule.constraintsOf v label = .ok r.constraints := by
  rw [LookupRule.ofRecord] at h
  obtain ⟨entries, -, h⟩ := except_bind_eq_ok_iff.1 h
  obtain ⟨header, -, h⟩ := except_bind_eq_ok_iff.1 h
  obtain ⟨constraints, hconstraints, h⟩ := except_bind_eq_ok_iff.1 h
  obtain ⟨calls, -, h⟩ := except_bind_eq_ok_iff.1 h
  cases h
  exact ⟨rfl, _, _, hconstraints⟩

/-- Each rule is read from a record. -/
theorem exists_ofRecord_of_readRecords {records : List Value} {start : Int}
    {rules : List LookupRule} (h : readRecords start records = .ok rules) :
    ∀ r ∈ rules, ∃ record index, LookupRule.ofRecord record index = .ok r := by
  induction records generalizing start rules with
  | nil =>
    cases h
    exact fun r hr => absurd hr List.not_mem_nil
  | cons record records ih =>
    obtain ⟨rule, hrule, h⟩ := except_bind_eq_ok_iff.1 h
    obtain ⟨rest, hrest, h⟩ := except_bind_eq_ok_iff.1 h
    cases h
    exact List.forall_mem_cons.2 ⟨⟨record, start, hrule⟩, ih hrest⟩

/-- Rules are read with ascending indexes, from the given one on. -/
theorem index_lt_of_readRecords {records : List Value} {start : Int} {rules : List LookupRule}
    (h : readRecords start records = .ok rules) :
    (∀ r ∈ rules, start ≤ r.index) ∧ rules.Pairwise fun a b => a.index < b.index := by
  induction records generalizing start rules with
  | nil =>
    cases h
    exact ⟨fun r hr => absurd hr List.not_mem_nil, List.Pairwise.nil⟩
  | cons record records ih =>
    obtain ⟨rule, hrule, h⟩ := except_bind_eq_ok_iff.1 h
    obtain ⟨rest, hrest, h⟩ := except_bind_eq_ok_iff.1 h
    cases h
    obtain ⟨hindex, -⟩ := ofRecord_eq_ok hrule
    obtain ⟨hlow, hsorted⟩ := ih hrest
    refine ⟨?_, List.Pairwise.cons ?_ hsorted⟩
    · intro r hr
      rcases List.mem_cons.1 hr with rfl | hr
      · omega
      · have := hlow r hr
        omega
    · intro r hr
      have := hlow r hr
      omega

theorem ofRecords_eq_ok_iff {records : List Value} {t : LookupTable} :
    ofRecords records = .ok t ↔ ∃ rules, readRecords 0 records = .ok rules ∧ t = ofRules rules := by
  rw [ofRecords]
  cases readRecords 0 records with
  | error fault => simp [Except.map]
  | ok rules => simp [Except.map, eq_comm]

/-- The rules of one object class and table set have indexes of their own. -/
theorem index_nodup_of_ofRecords {records : List Value} {t : LookupTable}
    (h : ofRecords records = .ok t) (objectClass : String) (tableSet : TableSet) :
    (t.rulesFor objectClass tableSet).Pairwise fun a b => a.index ≠ b.index := by
  obtain ⟨rules, hread, rfl⟩ := ofRecords_eq_ok_iff.1 h
  obtain ⟨-, hsorted⟩ := index_lt_of_readRecords hread
  have hfile := (hsorted.imp fun hlt => Int.ne_of_lt hlt).filter
    fun r => key r == (objectClass, tableSet)
  -- Sorting keeps that indexes differ, since to differ is symmetric.
  rw [rulesFor_ofRules]
  exact ((List.mergeSort_perm _ _).pairwise_iff fun hne => hne.symm).2 hfile

/-- No rule stands in a table twice. -/
theorem nodup_rules_of_ofRecords {records : List Value} {t : LookupTable}
    (h : ofRecords records = .ok t) : t.rules.Nodup := by
  obtain ⟨rules, hread, rfl⟩ := ofRecords_eq_ok_iff.1 h
  have hrules : rules.Nodup :=
    (index_lt_of_readRecords hread).2.imp fun hlt heq => by rw [heq] at hlt; omega
  have hgroups := ((distinct (rules.map key)).map (groupOf rules)).mergeSort_perm
    fun g h => decide (RuleGroup.position g ≤ RuleGroup.position h)
  refine (hgroups.flatMap_right (·.rules)).nodup_iff.2 (List.nodup_flatMap.2 ⟨?_, ?_⟩)
  · intro g hg
    obtain ⟨k, -, rfl⟩ := List.mem_map.1 hg
    exact (List.mergeSort_perm _ _).nodup_iff.2 (hrules.filter _)
  -- A rule has one key, so it is in one group only.
  · rw [List.pairwise_map]
    refine (nodup_distinct _).imp fun hne r hr hr' => hne ?_
    have hk := (List.mem_filter.1 (List.mem_mergeSort.1 hr)).2
    have hk' := (List.mem_filter.1 (List.mem_mergeSort.1 hr')).2
    rw [← eq_of_beq hk, ← eq_of_beq hk']

/-! ## First match -/

section Group

variable {t : LookupTable} {rule : LookupRule}
  (hindex : (t.rulesFor rule.objectClass rule.tableSet).Pairwise fun a b => a.index ≠ b.index)

include hindex

theorem earlier_eq_of_rulesFor_eq {before after : List LookupRule}
    (h : t.rulesFor rule.objectClass rule.tableSet = before ++ rule :: after) :
    t.earlier rule = before := by
  rw [h, List.pairwise_append] at hindex
  obtain ⟨-, -, hbefore⟩ := hindex
  have hne : ∀ e ∈ before, (e.index != rule.index) = true := by
    intro e he
    simpa using hbefore e he rule List.mem_cons_self
  rw [earlier, h, List.takeWhile_append_of_pos hne, List.takeWhile_cons_of_neg (by simp),
    List.append_nil]

/-- A rule of the table is selected where it matches and no rule before it does. -/
theorem select_eq_some_iff (hmem : rule ∈ t.rulesFor rule.objectClass rule.tableSet)
    {a : AttributeSet} (ha : a.objectClass = rule.objectClass) :
    t.select a rule.tableSet = some rule ↔
      rule.matchesAttributes a = true ∧ ∀ e ∈ t.earlier rule, e.matchesAttributes a = false := by
  rw [select, ha, List.find?_eq_some_iff_append]
  simp only [Bool.not_eq_eq_eq_not, Bool.not_true]
  constructor
  · rintro ⟨hmatch, before, after, hsplit, hbefore⟩
    rw [earlier_eq_of_rulesFor_eq hindex hsplit]
    exact ⟨hmatch, hbefore⟩
  · rintro ⟨hmatch, hearlier⟩
    obtain ⟨before, after, hsplit⟩ := List.append_of_mem hmem
    rw [earlier_eq_of_rulesFor_eq hindex hsplit] at hearlier
    exact ⟨hmatch, before, after, hsplit, hearlier⟩

end Group

theorem mem_rulesFor_of_select {t : LookupTable} {a : AttributeSet} {tableSet : TableSet}
    {rule : LookupRule} (h : t.select a tableSet = some rule) :
    rule ∈ t.rulesFor a.objectClass tableSet :=
  List.mem_of_find?_eq_some h

end LookupTable

end ChartStyle
