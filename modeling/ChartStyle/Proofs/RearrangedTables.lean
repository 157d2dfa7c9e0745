import ChartStyle.Proofs.CheckedCalls
import ChartStyle.Proofs.ReadCalls
import ChartStyle.Proofs.RuleSelection

/-!
# Rearranged tables

The place of a record in the file decides between rules of one object class, one table set and one
number of constraints. It decides nothing else: when the records are rearranged and such rules keep
their order, each group of the table holds the same rules in the same order at their new places
(`Rearrangement.rulesFor_moved`), so the same rules are selected, and a catalog gives the same
layers and diagnostics (`build_rearranged`).
-/

set_option autoImplicit false

namespace ChartStyle

/-! ## Reading a record at another place -/

/-- What a rule is called in errors does not matter where there are none. -/
theorem Call.parse_relabel {text : String} {label : Option String} {call : Call}
    (h : Call.parse text label = .ok call) (label' : Option String) :
    Call.parse text label' = .ok call := by
  unfold Call.parse at h ⊢
  dsimp only at h ⊢
  repeat' split at h
  all_goals simp_all

theorem parseInstructions_relabel {text : String} {label : Option String} {calls : List Call}
    (h : parseInstructions text label = .ok calls) (label' : Option String) :
    parseInstructions text label' = .ok calls := by
  rw [parseInstructions] at h ⊢
  by_cases hblank : Text.isBlankText text = true
  · rw [if_pos hblank] at h ⊢
    exact h
  · rw [if_neg hblank] at h ⊢
    cases hparts : splitOutsideQuotes ';' text.toList with
    | none =>
      rw [hparts] at h
      cases h
    | some parts =>
      rw [hparts] at h
      refine mapM_eq_ok_iff.2 ((mapM_eq_ok_iff.1 h).imp ?_)
      intro part call hcall
      exact Call.parse_relabel hcall label'

namespace LookupRule

theorem constraintsOf_relabel {v : Value} {label : String} {constraints : List Constraint}
    (h : constraintsOf v label = .ok constraints) (label' : String) :
    constraintsOf v label' = .ok constraints := by
  unfold constraintsOf at h ⊢
  split at h
  · exact h
  · cases h

/-- The place of a record is the index of its rule, and nothing else of the rule depends on it. -/
theorem ofRecord_at {record : Value} {index : Int} {rule : LookupRule}
    (h : ofRecord record index = .ok rule) (index' : Int) :
    ofRecord record index' = .ok { rule with index := index' } := by
  rw [ofRecord] at h ⊢
  obtain ⟨entries, hentries, h⟩ := except_bind_eq_ok_iff.1 h
  obtain ⟨header, hheader, h⟩ := except_bind_eq_ok_iff.1 h
  obtain ⟨constraints, hconstraints, h⟩ := except_bind_eq_ok_iff.1 h
  obtain ⟨calls, hcalls, h⟩ := except_bind_eq_ok_iff.1 h
  cases h
  refine except_bind_eq_ok_iff.2 ⟨entries, hentries, ?_⟩
  refine except_bind_eq_ok_iff.2 ⟨header, blame_eq_ok_iff.2 (blame_eq_ok_iff.1 hheader), ?_⟩
  refine except_bind_eq_ok_iff.2 ⟨constraints, constraintsOf_relabel hconstraints _, ?_⟩
  exact except_bind_eq_ok_iff.2 ⟨calls, parseInstructions_relabel hcalls _, rfl⟩

/-- Only their places decide which of two rules goes first. -/
def IsPeer (rule other : LookupRule) : Prop :=
  rule.objectClass = other.objectClass ∧ rule.tableSet = other.tableSet ∧
    rule.constraints.length = other.constraints.length

end LookupRule

namespace LookupTable

/-! ## Rearrangements -/

/-- A rearrangement of the records of a file: each gets a place of its own, and those of rules
that only their places tell apart keep their order. -/
structure Rearrangement (records records' : List Value) where
  /-- The new place of the record at a place. -/
  place : Fin records.length ≃ Fin records'.length
  getElem_place : ∀ i, records'[place i] = records[i]
  place_lt_place : ∀ (i j : Fin records.length) (rule other : LookupRule), i < j →
    ReadsAt records i rule → ReadsAt records j other → rule.IsPeer other → place i < place j

theorem ReadsAt.lt_length {records : List Value} {place : Nat} {rule : LookupRule}
    (h : ReadsAt records place rule) : place < records.length := by
  obtain ⟨record, hrecord, -⟩ := h
  exact (List.getElem?_eq_some_iff.1 hrecord).1

theorem exists_readsAt {records : List Value} {rules : List LookupRule}
    (hread : readRecords 0 records = .ok rules) {rule : LookupRule} (h : rule ∈ rules) :
    ∃ i : Fin records.length, ReadsAt records i rule := by
  obtain ⟨place, hplace⟩ := (mem_iff_readsAt hread).1 h
  exact ⟨⟨place, hplace.lt_length⟩, hplace⟩

namespace Rearrangement

variable {records records' : List Value} (σ : Rearrangement records records')

/-- The rules at a place of one file and at its new place in the other. -/
def Corresponds (rule rule' : LookupRule) : Prop :=
  ∃ i : Fin records.length, ReadsAt records i rule ∧ ReadsAt records' (σ.place i) rule'

/-- The index that the rule with an index gets. -/
def newIndex (index : Int) : Int :=
  if h : index.toNat < records.length then Int.ofNat (σ.place ⟨index.toNat, h⟩) else index

/-- The rule at its new place. -/
def moved (rule : LookupRule) : LookupRule := { rule with index := σ.newIndex rule.index }

theorem getElem?_place (i : Fin records.length) :
    records'[(σ.place i : Nat)]? = records[(i : Nat)]? := by
  rw [List.getElem?_eq_getElem i.isLt, List.getElem?_eq_getElem (σ.place i).isLt]
  exact congrArg some (σ.getElem_place i)

theorem newIndex_place (i : Fin records.length) :
    σ.newIndex (Int.ofNat i) = Int.ofNat (σ.place i) := by
  have hlt : (Int.ofNat i).toNat < records.length := i.isLt
  rw [newIndex, dif_pos hlt]
  rfl

section

variable {i j : Fin records.length} {rule other : LookupRule}

theorem moved_eq (h : ReadsAt records i rule) :
    σ.moved rule = { rule with index := Int.ofNat (σ.place i) } := by
  have hindex : rule.index = Int.ofNat i := h.index_eq
  rw [moved, hindex, newIndex_place]

theorem readsAt_moved (h : ReadsAt records i rule) :
    ReadsAt records' (σ.place i) (σ.moved rule) := by
  rw [σ.moved_eq h]
  obtain ⟨record, hrecord, hread⟩ := h
  exact ⟨record, (σ.getElem?_place i).trans hrecord, LookupRule.ofRecord_at hread _⟩

theorem corresponds_moved (h : ReadsAt records i rule) : σ.Corresponds rule (σ.moved rule) :=
  ⟨i, h, σ.readsAt_moved h⟩

/-- Every rule of the rearranged file has come from somewhere. -/
theorem exists_moved {place' : Nat} {rule' : LookupRule} (h : ReadsAt records' place' rule') :
    ∃ i : Fin records.length, ∃ rule, ReadsAt records i rule ∧ σ.moved rule = rule' := by
  let i := σ.place.symm ⟨place', h.lt_length⟩
  have hplace : (σ.place i : Nat) = place' := by
    rw [show σ.place i = ⟨place', h.lt_length⟩ from σ.place.apply_symm_apply _]
  have hindex : rule'.index = Int.ofNat place' := h.index_eq
  obtain ⟨record, hrecord, hread⟩ := h
  rw [← hplace, σ.getElem?_place] at hrecord
  have hreads : ReadsAt records i { rule' with index := Int.ofNat i } :=
    ⟨record, hrecord, LookupRule.ofRecord_at hread _⟩
  refine ⟨i, _, hreads, ?_⟩
  rw [σ.moved_eq hreads, hplace, ← hindex]

/-- Rules of one object class and table set are moved without a change of their order. -/
theorem precedes_moved (hrule : ReadsAt records i rule) (hother : ReadsAt records j other)
    (hkey : key rule = key other) :
    precedes (σ.moved rule) (σ.moved other) = precedes rule other := by
  rw [key, key, Prod.mk.injEq] at hkey
  obtain ⟨hclass, hset⟩ := hkey
  have hi : rule.index = Int.ofNat i := hrule.index_eq
  have hj : other.index = Int.ofNat j := hother.index_eq
  rw [Bool.eq_iff_iff, precedes_iff, precedes_iff, σ.moved_eq hrule, σ.moved_eq hother, hi, hj]
  refine or_congr_right (and_congr_right fun hlength => ?_)
  simp only [Int.ofNat_eq_natCast, Int.ofNat_le]
  rcases lt_trichotomy i j with hij | rfl | hij
  · have hplace := σ.place_lt_place i j rule other hij hrule hother ⟨hclass, hset, hlength⟩
    exact iff_of_true hplace.le hij.le
  · exact iff_of_true (Nat.le_refl _) (Nat.le_refl _)
  · have hplace := σ.place_lt_place j i other rule hij hother hrule
      ⟨hclass.symm, hset.symm, hlength.symm⟩
    exact iff_of_false (not_le.2 hplace) (not_le.2 hij)

theorem eq_of_moved_eq (hrule : ReadsAt records i rule) (hother : ReadsAt records j other)
    (h : σ.moved rule = σ.moved other) : rule = other := by
  have hindex := congrArg LookupRule.index h
  rw [σ.moved_eq hrule, σ.moved_eq hother] at hindex
  obtain rfl : i = j := σ.place.injective (Fin.ext (Int.ofNat.inj hindex))
  exact hrule.eq_of_index_eq hother (hrule.index_eq.trans hother.index_eq.symm)

end

/-! ## Groups of a rearranged table -/

section Files

variable {rules rules' : List LookupRule} (hread : readRecords 0 records = .ok rules)
  (hread' : readRecords 0 records' = .ok rules')

include hread hread'


/-- The rules of the rearranged file are the rules at their new places. -/
theorem perm_map_moved : rules'.Perm (rules.map σ.moved) := by
  have hmoved : (rules.map σ.moved).Nodup := by
    refine List.Nodup.map_on ?_ (nodup_of_readRecords hread)
    intro rule hrule other hother h
    obtain ⟨i, hi⟩ := exists_readsAt hread hrule
    obtain ⟨j, hj⟩ := exists_readsAt hread hother
    exact σ.eq_of_moved_eq hi hj h
  refine (List.perm_ext_iff_of_nodup (nodup_of_readRecords hread') hmoved).2 fun rule' => ?_
  rw [mem_iff_readsAt hread', List.mem_map]
  constructor
  · rintro ⟨place', hplace'⟩
    obtain ⟨i, rule, hrule, rfl⟩ := σ.exists_moved hplace'
    exact ⟨rule, (mem_iff_readsAt hread).2 ⟨i, hrule⟩, rfl⟩
  · rintro ⟨rule, hrule, rfl⟩
    obtain ⟨i, hi⟩ := exists_readsAt hread hrule
    exact ⟨σ.place i, σ.readsAt_moved hi⟩

/-- The rules of an object class and table set stay in canonical order when they are moved. -/
theorem rulesFor_ofRules_moved (objectClass : String) (tableSet : TableSet) :
    (ofRules rules').rulesFor objectClass tableSet =
      ((ofRules rules).rulesFor objectClass tableSet).map σ.moved := by
  rw [rulesFor_ofRules, rulesFor_ofRules]
  have hgroup : (rules'.filter fun r => key r == (objectClass, tableSet)).Perm
      ((rules.filter fun r => key r == (objectClass, tableSet)).map σ.moved) := by
    have hperm := (σ.perm_map_moved hread hread').filter fun r => key r == (objectClass, tableSet)
    rw [List.filter_map] at hperm
    exact hperm
  have hmap : ((rules.filter fun r => key r == (objectClass, tableSet)).mergeSort precedes).map
      σ.moved = ((rules.filter fun r => key r == (objectClass, tableSet)).map
        σ.moved).mergeSort precedes := by
    refine List.map_mergeSort fun rule hrule other hother => ?_
    obtain ⟨hrule, hkey⟩ := List.mem_filter.1 hrule
    obtain ⟨hother, hkey'⟩ := List.mem_filter.1 hother
    obtain ⟨i, hi⟩ := exists_readsAt hread hrule
    obtain ⟨j, hj⟩ := exists_readsAt hread hother
    exact (σ.precedes_moved hi hj ((eq_of_beq hkey).trans (eq_of_beq hkey').symm)).symm
  rw [hmap]
  -- Both sides are sorted and have the same members, each once.
  refine List.Perm.eq_of_pairwise ?_ (List.pairwise_mergeSort precedes_trans precedes_total _)
    (List.pairwise_mergeSort precedes_trans precedes_total _)
    ((List.mergeSort_perm _ _).trans (hgroup.trans (List.mergeSort_perm _ _).symm))
  intro rule other hrule hother h h'
  have hother' := hgroup.mem_iff.2 (List.mem_mergeSort.1 hother)
  exact eq_of_precedes hread' (List.mem_filter.1 (List.mem_mergeSort.1 hrule)).1
    (List.mem_filter.1 hother').1 h h'

end Files

section Tables

variable {t t' : LookupTable} (ht : ofRecords records = .ok t) (ht' : ofRecords records' = .ok t')

include ht ht'

theorem rulesFor_moved (objectClass : String) (tableSet : TableSet) :
    t'.rulesFor objectClass tableSet = (t.rulesFor objectClass tableSet).map σ.moved := by
  obtain ⟨rules, hread, rfl⟩ := ofRecords_eq_ok_iff.1 ht
  obtain ⟨rules', hread', rfl⟩ := ofRecords_eq_ok_iff.1 ht'
  exact σ.rulesFor_ofRules_moved hread hread' objectClass tableSet

theorem select_moved (a : AttributeSet) (tableSet : TableSet) :
    t'.select a tableSet = (t.select a tableSet).map σ.moved := by
  rw [select, select, σ.rulesFor_moved ht ht', List.find?_map]
  rfl

/-- The rules before a rule move with it, and their conditions are the same at any place. -/
theorem winningConditions_moved {rule : LookupRule}
    (hrule : rule ∈ t.rulesFor rule.objectClass rule.tableSet) :
    t'.winningConditions (σ.moved rule) = t.winningConditions rule := by
  obtain ⟨before, after, hsplit⟩ := List.append_of_mem hrule
  have hsplit' : t'.rulesFor (σ.moved rule).objectClass (σ.moved rule).tableSet =
      before.map σ.moved ++ σ.moved rule :: after.map σ.moved := by
    show t'.rulesFor rule.objectClass rule.tableSet = _
    rw [σ.rulesFor_moved ht ht', hsplit, List.map_append, List.map_cons]
  rw [winningConditions, winningConditions,
    earlier_eq_of_rulesFor_eq (index_nodup_of_ofRecords ht _ _) hsplit,
    earlier_eq_of_rulesFor_eq (index_nodup_of_ofRecords ht' _ _) hsplit', List.filterMap_map]
  rfl

theorem corresponds_select (a : AttributeSet) (tableSet : TableSet) :
    Option.Rel σ.Corresponds (t.select a tableSet) (t'.select a tableSet) := by
  rw [σ.select_moved ht ht']
  cases hselect : t.select a tableSet with
  | none => exact .none
  | some rule =>
    obtain ⟨rules, hread, rfl⟩ := ofRecords_eq_ok_iff.1 ht
    have hmem := (mem_rulesFor_ofRules.1 (mem_rulesFor_of_select hselect)).1
    obtain ⟨i, hi⟩ := exists_readsAt hread hmem
    exact .some (σ.corresponds_moved hi)

end Tables

end Rearrangement

end LookupTable

namespace Presentation

open LookupTable

/-! ## Builds with a rearranged table -/

theorem tables_of_ofTables {table : LookupTable} {registry : Registry} {palette : Palette}
    {p : Presentation} (h : ofTables table registry palette = .ok p) :
    p.table = table ∧ p.registry = registry ∧ p.palette = palette := by
  unfold ofTables at h
  split at h
  · cases h
    exact ⟨rfl, rfl, rfl⟩
  · cases h

theorem ofTables_of_check {table : LookupTable} {palette : Palette}
    (h : table.check palette = .ok ()) (registry : Registry) :
    ofTables table registry palette = .ok ⟨table, registry, palette, h⟩ := by
  unfold ofTables
  split
  · rfl
  · next fault hfault =>
    rw [h] at hfault
    cases hfault

section

variable {records records' : List Value} (σ : Rearrangement records records')
  {p p' : Presentation} (ht : ofRecords records = .ok p.table)
  (ht' : ofRecords records' = .ok p'.table) (hregistry : p'.registry = p.registry)
  (hpalette : p'.palette = p.palette) (s : Settings)

include σ ht ht' hregistry hpalette

theorem compileFeature_rearranged (index : Nat) (f : Feature) :
    p'.compileFeature s index f = p.compileFeature s index f := by
  have hcontext : p'.context s f.tableSet = p.context s f.tableSet := by
    rw [context, context, hregistry, hpalette]
  rw [compileFeature, compileFeature, σ.select_moved ht ht']
  cases hselect : p.table.select f.attributeSet f.tableSet with
  | none => rfl
  | some rule =>
    have hmem := mem_rulesFor_of_select hselect
    have hkey : rule.objectClass = f.attributeSet.objectClass ∧ rule.tableSet = f.tableSet := by
      obtain ⟨rules, -, htable⟩ := ofRecords_eq_ok_iff.1 ht
      rw [htable] at hmem
      exact (mem_rulesFor_ofRules.1 hmem).2
    rw [← hkey.1, ← hkey.2] at hmem
    have hfilter : p'.filter (σ.moved rule) f = p.filter rule f := by
      rw [filter, filter, σ.winningConditions_moved ht ht' hmem]
      rfl
    have hlayer (fragment : Fragment) (position : Nat) :
        p'.layerOf s index f (σ.moved rule) position fragment =
          p.layerOf s index f rule position fragment := by
      rw [layerOf, layerOf, hfilter]
      rfl
    simp only [Option.map_some, hcontext, hlayer]
    rfl

theorem compileAll_rearranged (features : List (Feature × Nat)) :
    p'.compileAll s features = p.compileAll s features := by
  induction features with
  | nil => rfl
  | cons entry features ih =>
    obtain ⟨f, index⟩ := entry
    rw [compileAll, compileAll, ih, compileFeature_rearranged σ ht ht' hregistry hpalette]

end

/-- Two presentations whose tables are read from the same records in different order, those of
rules that only their places tell apart in the same order, select the same rules, and build the
same layers with the same events from any catalog, or fail with the same fault. -/
theorem build_rearranged {records records' : List Value} (σ : Rearrangement records records')
    {table table' : LookupTable} (ht : ofRecords records = .ok table)
    (ht' : ofRecords records' = .ok table') {registry : Registry} {palette : Palette}
    {p p' : Presentation} (hp : ofTables table registry palette = .ok p)
    (hp' : ofTables table' registry palette = .ok p') :
    (∀ a tableSet, Option.Rel σ.Corresponds (table.select a tableSet) (table'.select a tableSet)) ∧
      ∀ s catalog, p.build s (some catalog) = p'.build s (some catalog) := by
  refine ⟨σ.corresponds_select ht ht', fun s catalog => ?_⟩
  obtain ⟨rfl, rfl, rfl⟩ := tables_of_ofTables hp
  obtain ⟨rfl, hregistry, hpalette⟩ := tables_of_ofTables hp'
  have hall := compileAll_rearranged σ ht ht' hregistry hpalette s
    (arranged catalog)
  rw [build, build, buildRanked, buildRanked, Option.getD_some, Option.getD_some, hall]

/-! ## Buoys among obstructions -/

/-- A record for all lateral buoys. -/
def buoyRecord : Value :=
  .ofFields [("object_class", .text "BOYLAT"), ("table_set", .text "POINTS"), ("priority", .int 8)]

/-- Records for foul areas, for buoys, and for obstructions of known depth. -/
def buoySecond : List Value :=
  [obstructionRecord [("CATOBS", .int 6)] "LS(SOLD,1,CHBLK)", buoyRecord,
    obstructionRecord [("VALSOU", .null)] "CS(OBSTRN04)"]

/-- The same records with the buoys in front. -/
def buoyFirst : List Value :=
  [buoyRecord, obstructionRecord [("CATOBS", .int 6)] "LS(SOLD,1,CHBLK)",
    obstructionRecord [("VALSOU", .null)] "CS(OBSTRN04)"]

/-- The rule for foul areas. -/
def foulRule (index : Int) : LookupRule :=
  obstructionRule index [⟨"CATOBS", some "6"⟩] "LS(SOLD,1,CHBLK)"
    [⟨.ls, [.text "SOLD", .int 1, .text "CHBLK"]⟩]

/-- The rule for obstructions of known depth. -/
def depthRule (index : Int) : LookupRule :=
  obstructionRule index [⟨"VALSOU", none⟩] "CS(OBSTRN04)" [⟨.cs, [.text "OBSTRN04"]⟩]

set_option maxRecDepth 10000 in
theorem readRecords_buoySecond :
    readRecords 0 buoySecond = .ok [foulRule 0, lateralRule 1 [], depthRule 2] := by
  with_unfolding_all rfl

set_option maxRecDepth 10000 in
theorem readRecords_buoyFirst :
    readRecords 0 buoyFirst = .ok [lateralRule 0 [], foulRule 1, depthRule 2] := by
  with_unfolding_all rfl

/-- The two rules for obstructions keep their order when the buoys are brought forward. -/
def buoyForward : Rearrangement buoySecond buoyFirst where
  place := (Equiv.swap 0 1 : Fin 3 ≃ Fin 3)
  getElem_place := by
    rintro ⟨i, hi⟩
    have hlt : i < 3 := hi
    interval_cases i
    · rfl
    · rfl
    · rfl
  place_lt_place := by
    intro i j rule other hij hrule hother hpeer
    have hswap : ∀ i j : Fin 3, i < j →
        Equiv.swap (0 : Fin 3) 1 i < Equiv.swap (0 : Fin 3) 1 j ∨ (i = 0 ∧ j = 1) := by
      decide
    rcases hswap i j hij with hlt | ⟨rfl, rfl⟩
    · exact hlt
    -- Only the first two change their order, and they are of different object classes.
    · obtain ⟨_, hfoul⟩ :=
        (mem_iff_readsAt readRecords_buoySecond).1 (show foulRule 0 ∈ _ by simp)
      obtain ⟨_, hbuoy⟩ :=
        (mem_iff_readsAt readRecords_buoySecond).1 (show lateralRule 1 [] ∈ _ by simp)
      obtain rfl : rule = foulRule 0 := hrule.eq_of_index_eq hfoul hrule.index_eq
      obtain rfl : other = lateralRule 1 [] := hother.eq_of_index_eq hbuoy hother.index_eq
      exact absurd hpeer.1 (by decide)

theorem check_ofRules (rules : List LookupRule) (palette : Palette)
    (h : ∀ rule ∈ rules, rule.check palette = .ok ()) : (ofRules rules).check palette = .ok () :=
  forM_eq_ok_iff.2 fun rule hrule => h rule (mem_rules_ofRules.1 hrule)

/-- With the buoys in front a catalog is drawn as before. -/
theorem build_rearranged_buoyForward :
    ofRecords buoySecond = .ok (ofRules [foulRule 0, lateralRule 1 [], depthRule 2]) ∧
      ofRecords buoyFirst = .ok (ofRules [lateralRule 0 [], foulRule 1, depthRule 2]) ∧
      ∃ p p', ofTables (ofRules [foulRule 0, lateralRule 1 [], depthRule 2]) default
          Bundled.palette = .ok p ∧
        ofTables (ofRules [lateralRule 0 [], foulRule 1, depthRule 2]) default Bundled.palette =
          .ok p' ∧
        ∀ catalog, p.build {} (some catalog) = p'.build {} (some catalog) := by
  have htable := ofRecords_eq_ok_iff.2 ⟨_, readRecords_buoySecond, rfl⟩
  have htable' := ofRecords_eq_ok_iff.2 ⟨_, readRecords_buoyFirst, rfl⟩
  have hp := ofTables_of_check (check_ofRules [foulRule 0, lateralRule 1 [], depthRule 2]
    Bundled.palette (by decide +kernel)) default
  have hp' := ofTables_of_check (check_ofRules [lateralRule 0 [], foulRule 1, depthRule 2]
    Bundled.palette (by decide +kernel)) default
  obtain ⟨-, hbuild⟩ := build_rearranged buoyForward htable htable' hp hp'
  exact ⟨htable, htable', _, _, hp, hp', hbuild {}⟩

end Presentation

end ChartStyle
