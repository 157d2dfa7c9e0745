import ChartStyle.Proofs.CanonicalOrder
import ChartStyle.Proofs.RuleGroups

/-!
# The rule that is selected

Several rules can fit a feature: rules of its object class and table set with constraints that its
attributes meet. A table groups its rules, sorts each group and takes the first rule that matches.
That is the fitting rule with the most constraints, and of those the one that stands first in the
file (`select_canonical`); there is none only where no rule fits.
-/

set_option autoImplicit false

namespace ChartStyle

/-! ## First matches in sorted lists -/

/-- The first member of a sorted list that meets a condition is the least that meets it. -/
theorem find?_mergeSort_eq_some_iff {α : Type} {le : α → α → Bool} {p : α → Bool} {xs : List α}
    {x : α} (trans : ∀ a b c, le a b = true → le b c = true → le a c = true)
    (total : ∀ a b, (le a b || le b a) = true)
    (antisymm : ∀ a ∈ xs, ∀ b ∈ xs, le a b = true → le b a = true → a = b) :
    (xs.mergeSort le).find? p = some x ↔
      x ∈ xs ∧ p x = true ∧ ∀ y ∈ xs, p y = true → le x y = true := by
  have hleast : ∀ z, (xs.mergeSort le).find? p = some z →
      z ∈ xs ∧ p z = true ∧ ∀ y ∈ xs, p y = true → le z y = true := by
    intro z hz
    obtain ⟨hpz, before, after, hsplit, hbefore⟩ := List.find?_eq_some_iff_append.1 hz
    have hsorted := List.pairwise_mergeSort trans total xs
    rw [hsplit, List.pairwise_append, List.pairwise_cons] at hsorted
    obtain ⟨-, ⟨hafter, -⟩, -⟩ := hsorted
    refine ⟨List.mem_mergeSort.1 (List.mem_of_find?_eq_some hz), hpz, ?_⟩
    intro y hy hpy
    have hmem : y ∈ before ++ z :: after := by
      rw [← hsplit]
      exact List.mem_mergeSort.2 hy
    rcases List.mem_append.1 hmem with hin | hin
    -- What stands before the first match does not match.
    · have hno := hbefore y hin
      simp [hpy] at hno
    · rcases List.mem_cons.1 hin with rfl | hin
      · simpa using total y y
      · exact hafter y hin
  constructor
  · exact hleast x
  · rintro ⟨hx, hpx, hmin⟩
    cases hfind : (xs.mergeSort le).find? p with
    | none =>
      have hno := List.find?_eq_none.1 hfind x (List.mem_mergeSort.2 hx)
      exact absurd hpx hno
    | some z =>
      obtain ⟨hz, hpz, hzmin⟩ := hleast z hfind
      rw [antisymm x hx z hz (hmin z hz hpz) (hzmin x hx hpx)]

namespace LookupTable

variable {records : List Value} {t : LookupTable} {rule other : LookupRule}

/-! ## Canonical order -/

theorem precedes_iff : precedes rule other = true ↔
    other.constraints.length < rule.constraints.length ∨
      (rule.constraints.length = other.constraints.length ∧ rule.index ≤ other.index) := by
  simp [precedes]

theorem precedes_trans (a b c : LookupRule) (hab : precedes a b = true)
    (hbc : precedes b c = true) : precedes a c = true := by
  rw [precedes_iff] at hab hbc ⊢
  omega

theorem precedes_total (a b : LookupRule) : (precedes a b || precedes b a) = true := by
  rw [Bool.or_eq_true, precedes_iff, precedes_iff]
  omega

/-- Two rules that precede each other stand in one place. -/
theorem index_eq_of_precedes (h : precedes rule other = true) (h' : precedes other rule = true) :
    rule.index = other.index := by
  rw [precedes_iff] at h h'
  omega

/-! ## Places in the file -/

/-- The record at a place of the file is read as the rule. -/
def ReadsAt (records : List Value) (place : Nat) (rule : LookupRule) : Prop :=
  ∃ record, records[place]? = some record ∧ LookupRule.ofRecord record place = .ok rule

theorem ReadsAt.index_eq {place : Nat} (h : ReadsAt records place rule) : rule.index = place := by
  obtain ⟨record, -, hread⟩ := h
  exact (ofRecord_eq_ok hread).1

theorem ReadsAt.eq_of_index_eq {place place' : Nat} (h : ReadsAt records place rule)
    (h' : ReadsAt records place' other) (hindex : rule.index = other.index) : rule = other := by
  have hplace : place = place' := by
    rw [h.index_eq, h'.index_eq] at hindex
    exact Int.ofNat.inj hindex
  subst hplace
  obtain ⟨record, hrecord, hread⟩ := h
  obtain ⟨record', hrecord', hread'⟩ := h'
  obtain rfl : record = record' := Option.some.inj (hrecord.symm.trans hrecord')
  exact Except.ok.inj (hread.symm.trans hread')

/-- The rules that are read are those of the records, each with its place. -/
theorem mem_iff_of_readRecords {start : Int} {rules : List LookupRule}
    (h : readRecords start records = .ok rules) :
    rule ∈ rules ↔ ∃ place record, records[place]? = some record ∧
      LookupRule.ofRecord record (start + Int.ofNat place) = .ok rule := by
  induction records generalizing start rules with
  | nil =>
    cases h
    simp
  | cons first records ih =>
    obtain ⟨own, hown, h⟩ := except_bind_eq_ok_iff.1 h
    obtain ⟨rest, hrest, h⟩ := except_bind_eq_ok_iff.1 h
    cases h
    -- The places of the other records are counted from the next one on.
    have hnext : ∀ place : Nat, start + 1 + Int.ofNat place = start + Int.ofNat (place + 1) := by
      intro place
      simp only [Int.ofNat_eq_natCast]
      omega
    rw [List.mem_cons, ih hrest]
    constructor
    · rintro (rfl | ⟨place, record, hrecord, hread⟩)
      · exact ⟨0, first, rfl, by simpa using hown⟩
      · rw [hnext] at hread
        exact ⟨place + 1, record, hrecord, hread⟩
    · rintro ⟨place, record, hrecord, hread⟩
      cases place with
      | zero =>
        cases hrecord
        have hstart : start + Int.ofNat 0 = start := Int.add_zero start
        rw [hstart, hown] at hread
        exact .inl (Except.ok.inj hread).symm
      | succ place =>
        rw [← hnext] at hread
        exact .inr ⟨place, record, hrecord, hread⟩

section File

variable {rules : List LookupRule} (hread : readRecords 0 records = .ok rules)

include hread

theorem mem_iff_readsAt : rule ∈ rules ↔ ∃ place, ReadsAt records place rule := by
  rw [mem_iff_of_readRecords hread]
  simp only [Int.zero_add]
  rfl

theorem nodup_of_readRecords : rules.Nodup := by
  refine (index_lt_of_readRecords hread).2.imp fun hlt heq => ?_
  rw [heq] at hlt
  exact Int.lt_irrefl _ hlt

/-- Two rules of a file stand in different places. -/
theorem eq_of_index_eq (hrule : rule ∈ rules) (hother : other ∈ rules)
    (hindex : rule.index = other.index) : rule = other := by
  obtain ⟨place, hplace⟩ := (mem_iff_readsAt hread).1 hrule
  obtain ⟨place', hplace'⟩ := (mem_iff_readsAt hread).1 hother
  exact hplace.eq_of_index_eq hplace' hindex

/-- Of two rules of a file one stands before the other. -/
theorem eq_of_precedes (hrule : rule ∈ rules) (hother : other ∈ rules)
    (h : precedes rule other = true) (h' : precedes other rule = true) : rule = other :=
  eq_of_index_eq hread hrule hother (index_eq_of_precedes h h')

end File

end LookupTable

/-! ## Rules that fit -/

/-- The feature has a value for the attribute, and the one that is expected if there is such. -/
def Constraint.IsMet (c : Constraint) (a : AttributeSet) : Prop :=
  ∃ v, a.find? c.code = some v ∧ v.isStated = true ∧
    ∀ expected ∈ c.expected, v.normalForm = expected

theorem LookupRule.matchesAttributes_iff {rule : LookupRule} {a : AttributeSet} :
    rule.matchesAttributes a = true ↔ ∀ c ∈ rule.constraints, c.IsMet a := by
  rw [LookupRule.matchesAttributes, List.all_eq_true]
  exact forall₂_congr fun c _ => Constraint.holds_iff

namespace LookupTable

variable {records : List Value} {t : LookupTable}

/-- The rule at a place of the file fits a feature: it is for the feature's object class and table
set, and the feature meets all of its constraints. -/
structure FitsAt (records : List Value) (a : AttributeSet) (tableSet : TableSet) (place : Nat)
    (rule : LookupRule) : Prop where
  reads : ReadsAt records place rule
  objectClass : rule.objectClass = a.objectClass
  tableSet : rule.tableSet = tableSet
  met : ∀ c ∈ rule.constraints, c.IsMet a

/-- The rules of a table that match are those that fit somewhere. -/
theorem mem_group_and_matches_iff {rules : List LookupRule}
    (hread : readRecords 0 records = .ok rules) (a : AttributeSet) (tableSet : TableSet)
    (rule : LookupRule) :
    (rule ∈ rules.filter fun r => key r == (a.objectClass, tableSet)) ∧
        rule.matchesAttributes a = true ↔
      ∃ place, FitsAt records a tableSet place rule := by
  rw [List.mem_filter, mem_iff_readsAt hread, beq_iff_eq, key, Prod.mk.injEq,
    LookupRule.matchesAttributes_iff]
  constructor
  · rintro ⟨⟨⟨place, hplace⟩, hclass, hset⟩, hmet⟩
    exact ⟨place, hplace, hclass, hset, hmet⟩
  · rintro ⟨place, hfits⟩
    exact ⟨⟨⟨place, hfits.reads⟩, hfits.objectClass, hfits.tableSet⟩, hfits.met⟩

/-- A rule is selected exactly when it fits, and every other rule that fits has fewer constraints,
or as many and a later place in the file. No rule is selected exactly when none fits. -/
theorem select_canonical (ht : ofRecords records = .ok t) (a : AttributeSet)
    (tableSet : TableSet) :
    (t.select a tableSet = none ↔ ∀ place rule, ¬ FitsAt records a tableSet place rule) ∧
      ∀ rule, t.select a tableSet = some rule ↔
        ∃ place, FitsAt records a tableSet place rule ∧
          ∀ place' rule', FitsAt records a tableSet place' rule' →
            rule'.constraints.length < rule.constraints.length ∨
              (rule'.constraints.length = rule.constraints.length ∧ place ≤ place') := by
  obtain ⟨rules, hread, rfl⟩ := ofRecords_eq_ok_iff.1 ht
  have hfits := mem_group_and_matches_iff hread a tableSet
  rw [select, rulesFor_ofRules]
  refine ⟨?_, fun rule => ?_⟩
  · rw [List.find?_eq_none]
    constructor
    · intro hnone place rule hfit
      obtain ⟨hmem, hmatch⟩ := (hfits rule).2 ⟨place, hfit⟩
      exact hnone rule (List.mem_mergeSort.2 hmem) hmatch
    · intro hno rule hmem hmatch
      obtain ⟨place, hfit⟩ := (hfits rule).1 ⟨List.mem_mergeSort.1 hmem, hmatch⟩
      exact hno place rule hfit
  · have hantisymm : ∀ r ∈ rules.filter fun r => key r == (a.objectClass, tableSet),
        ∀ r' ∈ rules.filter fun r => key r == (a.objectClass, tableSet),
          precedes r r' = true → precedes r' r = true → r = r' := by
      intro r hr r' hr' h h'
      exact eq_of_precedes hread (List.mem_filter.1 hr).1 (List.mem_filter.1 hr').1 h h'
    rw [find?_mergeSort_eq_some_iff precedes_trans precedes_total hantisymm, ← and_assoc, hfits]
    constructor
    · rintro ⟨⟨place, hfit⟩, hleast⟩
      refine ⟨place, hfit, fun place' rule' hfit' => ?_⟩
      obtain ⟨hmem, hmatch⟩ := (hfits rule').2 ⟨place', hfit'⟩
      have hprecedes := precedes_iff.1 (hleast rule' hmem hmatch)
      rw [hfit.reads.index_eq, hfit'.reads.index_eq] at hprecedes
      omega
    · rintro ⟨place, hfit, hleast⟩
      refine ⟨⟨place, hfit⟩, fun rule' hmem hmatch => ?_⟩
      obtain ⟨place', hfit'⟩ := (hfits rule').1 ⟨hmem, hmatch⟩
      have hbest := hleast place' rule' hfit'
      rw [precedes_iff, hfit.reads.index_eq, hfit'.reads.index_eq]
      omega

/-! ## Tied rules -/

/-- Records for all lateral buoys, for those with a category, for those with a category and a
topmark, and for those that are lit. -/
def tiedRecords : List Value :=
  [[], [("CATLAM", .null)], [("CATLAM", .null), ("TOPSHP", .null)], [("STATUS", .text "lit")]].map
    fun attributes => .ofFields [("object_class", .text "BOYLAT"), ("table_set", .text "POINTS"),
      ("attributes", .ofFields attributes), ("priority", .int 8)]

/-- The rules of the records. -/
def tiedRules : List LookupRule :=
  [lateralRule 0 [], lateralRule 1 [⟨"CATLAM", none⟩],
    lateralRule 2 [⟨"CATLAM", none⟩, ⟨"TOPSHP", none⟩], lateralRule 3 [⟨"STATUS", some "lit"⟩]]

/-- A lit buoy with a category and without a topmark. -/
def tiedBuoy : AttributeSet := ⟨"BOYLAT", [("STATUS", .text " lit "), ("CATLAM", .int 1)]⟩

theorem readRecords_tiedRecords : readRecords 0 tiedRecords = .ok tiedRules := by cbv

/-- Of the two rules with one constraint that the buoy meets, the one that stands first is
selected: the rule with two constraints does not fit, and the one without any does not win. -/
theorem select_canonical_tiedBuoy :
    ofRecords tiedRecords = .ok (ofRules tiedRules) ∧
      (ofRules tiedRules).select tiedBuoy .points = some (lateralRule 1 [⟨"CATLAM", none⟩]) := by
  have htable : ofRecords tiedRecords = .ok (ofRules tiedRules) :=
    ofRecords_eq_ok_iff.2 ⟨tiedRules, readRecords_tiedRecords, rfl⟩
  refine ⟨htable, ?_⟩
  have hrule : lateralRule 1 [⟨"CATLAM", none⟩] ∈ tiedRules := by simp [tiedRules]
  obtain ⟨place, hreads⟩ := (mem_iff_readsAt readRecords_tiedRecords).1 hrule
  obtain rfl : 1 = place := Int.ofNat.inj hreads.index_eq
  have hmet : ∀ c ∈ [Constraint.mk "CATLAM" none], c.IsMet tiedBuoy := by
    intro c hc
    obtain rfl := List.mem_singleton.1 hc
    exact ⟨.int 1, rfl, rfl, by simp⟩
  obtain ⟨-, hselect⟩ := select_canonical htable tiedBuoy .points
  refine (hselect _).2 ⟨1, ⟨hreads, rfl, rfl, hmet⟩, ?_⟩
  intro place' rule' hfit
  have hmem := (mem_iff_readsAt readRecords_tiedRecords).2 ⟨place', hfit.reads⟩
  have hindex := hfit.reads.index_eq
  simp only [tiedRules, List.mem_cons, List.not_mem_nil, or_false] at hmem
  rcases hmem with rfl | rfl | rfl | rfl
  · exact .inl (by decide)
  · exact .inr ⟨rfl, (Int.ofNat.inj hindex).le⟩
  -- The buoy has no topmark.
  · obtain ⟨v, hv, -⟩ := hfit.met ⟨"TOPSHP", none⟩ (by simp [lateralRule])
    cases hv
  · obtain rfl : 3 = place' := Int.ofNat.inj hindex
    exact .inr ⟨rfl, by decide⟩

end LookupTable

end ChartStyle
