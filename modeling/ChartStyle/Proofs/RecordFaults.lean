import ChartStyle.Proofs.ReadCalls
import ChartStyle.Proofs.RuleSelection

/-!
# What records of rules are refused for

Reading a rule turns the faults of its fields into configuration errors that name the rule. Two
kinds of record get past that (`LookupRule.Escapes`): a record that is no mapping, and one whose
priority or viewing group is an infinity. A list of records becomes a table with one rule for each
of them, or is refused with a configuration error, just when no such record is reached
(`LookupTable.ofRecords_settles_iff`).
-/

set_option autoImplicit false

namespace ChartStyle

/-- A table or setting is malformed. -/
def Fault.IsConfiguration (fault : Fault) : Prop :=
  ∃ problem rule, fault = .configuration problem rule

theorem exists_configuration_iff {α : Type} {outcome : Except Fault α} :
    (∃ problem rule, outcome = .error (.configuration problem rule)) ↔
      ∃ fault, outcome = .error fault ∧ fault.IsConfiguration := by
  constructor
  · rintro ⟨problem, rule, h⟩
    exact ⟨_, h, problem, rule, rfl⟩
  · rintro ⟨_, h, problem, rule, rfl⟩
    exact ⟨problem, rule, h⟩

/-! ## Values as mappings and as whole numbers -/

namespace Value

theorem entries_eq_ok_iff {v : Value} {entries : Entries} :
    v.entries = .ok entries ↔ v = .map entries := by
  cases v <;> simp [Value.entries]

theorem entries_eq_error_iff {v : Value} {fault : Fault} :
    v.entries = .error fault ↔
      (∀ entries, v ≠ .map entries) ∧ fault = .data (.notAMapping v.kindName) := by
  cases v <;> simp [Value.entries, eq_comm]

/-- An infinity. -/
def isInfinite : Value → Bool
  | .real (.infinite _) => true
  | _ => false

end Value

/-! ## Fields -/

namespace LookupRule

/-- The faults of fields that become errors of the rule, and those that are such errors already. -/
def IsBlamed : Fault → Prop
  | .configuration _ _ => True
  | .data problem => problem.faultClass ∈ [.missingKey, .wrongType, .badValue]
  | _ => False

/-- Of the values that are no whole numbers only an infinity is not blamed on the rule. -/
theorem strays_toInt_iff {v : Value} : Strays IsBlamed v.toInt ↔ v.isInfinite = true := by
  cases v with
  | real x =>
    cases x <;>
      simp [Value.toInt, Value.wholePart, Value.isInfinite, IsBlamed, DataFault.faultClass]
  | text s =>
    rw [Value.toInt]
    cases Text.readInt? s <;> simp [Value.isInfinite, IsBlamed, DataFault.faultClass]
  | _ => simp [Value.toInt, Value.isInfinite, IsBlamed, DataFault.faultClass]

theorem require_eq_ok_iff {entries : Entries} {key : String} {v : Value} :
    Entries.require entries key = .ok v ↔ Entries.get? entries key = some v := by
  rw [Entries.require]
  cases Entries.get? entries key <;> simp

theorem not_strays_require {entries : Entries} {key : String} :
    ¬ Strays IsBlamed (Entries.require entries key) := by
  rw [Entries.require]
  cases Entries.get? entries key <;> simp [IsBlamed, DataFault.faultClass]

theorem not_strays_tableSet {v : Value} : ¬ Strays IsBlamed (TableSet.parse v) := by
  unfold TableSet.parse
  split <;> simp [IsBlamed]

theorem not_strays_category {v : Value} : ¬ Strays IsBlamed (DisplayCategory.parse v) := by
  unfold DisplayCategory.parse
  dsimp only
  split <;> simp [IsBlamed, DataFault.faultClass]

/-! ## Records -/

/-- The fields that are read before the priority are readable. -/
def ReachesPriority (entries : Entries) : Prop :=
  (∃ v, Entries.get? entries "object_class" = some v) ∧
    ∃ v tableSet, Entries.get? entries "table_set" = some v ∧ TableSet.parse v = .ok tableSet

/-- The fields that are read before the viewing group are readable. -/
def ReachesViewingGroup (entries : Entries) : Prop :=
  ReachesPriority entries ∧
    (∃ v priority, Entries.get? entries "priority" = some v ∧ v.toInt = .ok priority) ∧
    ∃ category, DisplayCategory.parse
      ((Entries.get? entries "category").getD (.text "STANDARD")) = .ok category

/-- The records whose faults are not turned into errors of the rule. -/
inductive Escapes : Value → Prop where
  /-- The record is no mapping. -/
  | noMapping {record : Value} (hrecord : ∀ entries, record ≠ .map entries) : Escapes record
  /-- The priority is an infinity. -/
  | priority {entries : Entries} {v : Value} (hreached : ReachesPriority entries)
      (hv : Entries.get? entries "priority" = some v) (hinfinite : v.isInfinite = true) :
      Escapes (.map entries)
  /-- The viewing group is an infinity. -/
  | viewingGroup {entries : Entries} {v : Value} (hreached : ReachesViewingGroup entries)
      (hv : Entries.get? entries "viewing_group" = some v) (hinfinite : v.isInfinite = true) :
      Escapes (.map entries)

theorem strays_header_iff {entries : Entries} :
    Strays IsBlamed (Header.ofEntries entries) ↔ Escapes (.map entries) := by
  simp only [Header.ofEntries, strays_bind_iff, not_strays_pure, not_strays_require,
    not_strays_tableSet, not_strays_category, strays_toInt_iff, require_eq_ok_iff, false_or,
    and_false, exists_false, or_false]
  constructor
  · rintro ⟨objectClass, hclass, name, hname, tableSet, hset, v, hv, h⟩
    have hreached : ReachesPriority entries :=
      ⟨⟨objectClass, hclass⟩, name, tableSet, hname, hset⟩
    rcases h with hinfinite | ⟨priority, hpriority, category, hcategory, hinfinite⟩
    · exact .priority hreached hv hinfinite
    · cases hgroup : Entries.get? entries "viewing_group" with
      -- Without a viewing group the rule has zero, which is no infinity.
      | none =>
        rw [hgroup] at hinfinite
        cases hinfinite
      | some w =>
        rw [hgroup] at hinfinite
        exact .viewingGroup ⟨hreached, ⟨v, priority, hv, hpriority⟩, category, hcategory⟩ hgroup
          hinfinite
  · intro h
    cases h with
    | noMapping hrecord => exact absurd rfl (hrecord entries)
    | priority hreached hv hinfinite =>
      obtain ⟨⟨objectClass, hclass⟩, name, tableSet, hname, hset⟩ := hreached
      exact ⟨objectClass, hclass, name, hname, tableSet, hset, _, hv, .inl hinfinite⟩
    | viewingGroup hreached hv hinfinite =>
      obtain ⟨⟨⟨objectClass, hclass⟩, name, tableSet, hname, hset⟩, ⟨p, priority, hp, hpriority⟩,
        category, hcategory⟩ := hreached
      refine ⟨objectClass, hclass, name, hname, tableSet, hset, p, hp,
        .inr ⟨priority, hpriority, category, hcategory, ?_⟩⟩
      rw [hv]
      exact hinfinite

/-- What is left after the faults of fields were blamed on the rule are configuration errors and the
faults that are not blamed. -/
theorem strays_blame_iff {α : Type} {label : String} {outcome : Except Fault α} :
    Strays Fault.IsConfiguration (blame label outcome) ↔ Strays IsBlamed outcome := by
  cases outcome with
  | ok a => simp [blame]
  | error fault =>
    cases fault with
    | data problem =>
      rw [blame]
      split <;> simp_all [Fault.IsConfiguration, IsBlamed]
    | _ => simp [blame, Fault.IsConfiguration, IsBlamed]

theorem not_strays_constraintsOf {v : Value} {label : String} :
    ¬ Strays Fault.IsConfiguration (constraintsOf v label) := by
  unfold constraintsOf
  split <;> simp [Fault.IsConfiguration]

theorem not_strays_parseInstructions {text : String} {rule : Option String} :
    ¬ Strays Fault.IsConfiguration (parseInstructions text rule) := by
  rintro ⟨fault, hfault, hother⟩
  obtain ⟨problem, rfl⟩ := parseInstructions_eq_error hfault
  exact hother ⟨problem, rule, rfl⟩

/-- A record that is not read is refused with a configuration error, or it is one of those that
escape. -/
theorem strays_ofRecord_iff {record : Value} {index : Int} :
    Strays Fault.IsConfiguration (ofRecord record index) ↔ Escapes record := by
  simp only [ofRecord, strays_bind_iff, strays_blame_iff, strays_header_iff,
    not_strays_constraintsOf, not_strays_parseInstructions, not_strays_pure, and_false,
    exists_false, or_false]
  constructor
  · rintro (⟨fault, hfault, -⟩ | ⟨entries, hentries, hescapes⟩)
    · exact .noMapping (Value.entries_eq_error_iff.1 hfault).1
    · rw [Value.entries_eq_ok_iff] at hentries
      rw [hentries]
      exact hescapes
  · intro h
    cases hentries : record.entries with
    | ok entries =>
      rw [Value.entries_eq_ok_iff] at hentries
      exact .inr ⟨entries, rfl, hentries ▸ h⟩
    | error fault =>
      obtain ⟨-, rfl⟩ := Value.entries_eq_error_iff.1 hentries
      exact .inl (by simp [Fault.IsConfiguration])

end LookupRule

/-! ## Lists of records -/

namespace LookupTable

variable {records : List Value} {t : LookupTable}

/-- A record with its place in the file, as a rule. -/
def readEntry (entry : Value × Nat) : Except Fault LookupRule :=
  LookupRule.ofRecord entry.1 entry.2

theorem readRecords_eq_mapM (records : List Value) (start : Nat) :
    readRecords start records = (records.zipIdx start).mapM readEntry := by
  induction records generalizing start with
  | nil => rfl
  | cons record records ih =>
    rw [List.zipIdx_cons, List.mapM_cons, readRecords, ← ih (start + 1)]
    rfl

/-- The table has exactly one rule for each record, in an order of its own. -/
def HasRuleOfEach (t : LookupTable) (records : List Value) : Prop :=
  ∃ rules, t.rules.Perm rules ∧
    List.Forall₂ (fun entry rule => readEntry entry = .ok rule) records.zipIdx rules

theorem hasRuleOfEach_of_ofRecords (h : ofRecords records = .ok t) : t.HasRuleOfEach records := by
  obtain ⟨rules, hread, rfl⟩ := ofRecords_eq_ok_iff.1 h
  refine ⟨rules, ?_, mapM_eq_ok_iff.1 ((readRecords_eq_mapM records 0).symm.trans hread)⟩
  exact (List.perm_ext_iff_of_nodup (nodup_rules_of_ofRecords h) (nodup_of_readRecords hread)).2
    fun rule => mem_rules_ofRules

theorem reaches_readEntry_iff {place : Nat} :
    Reaches readEntry records.zipIdx place ↔
      ∀ earlier < place, ∃ rule, ReadsAt records earlier rule := by
  refine forall₂_congr fun earlier _ => ?_
  rw [List.getElem?_zipIdx]
  constructor
  · rintro ⟨entry, rule, hentry, hread⟩
    obtain ⟨record, hrecord, rfl⟩ := Option.map_eq_some_iff.1 hentry
    exact ⟨rule, record, hrecord, by simpa [readEntry] using hread⟩
  · rintro ⟨rule, record, hrecord, hread⟩
    exact ⟨(record, 0 + earlier), rule, by rw [hrecord]; rfl, by simpa [readEntry] using hread⟩

/-- A list of records strays from configuration errors just when the first record that cannot be
read escapes. -/
theorem strays_ofRecords_iff :
    Strays Fault.IsConfiguration (ofRecords records) ↔
      ∃ place record, records[place]? = some record ∧
        (∀ earlier < place, ∃ rule, ReadsAt records earlier rule) ∧ LookupRule.Escapes record := by
  have hlist : Strays Fault.IsConfiguration (ofRecords records) ↔
      Strays Fault.IsConfiguration (records.zipIdx.mapM readEntry) := by
    rw [ofRecords, ← readRecords_eq_mapM records 0]
    cases readRecords 0 records <;> simp [Except.map]
  rw [hlist, strays_mapM_iff]
  refine exists_congr fun place => ?_
  rw [List.getElem?_zipIdx]
  constructor
  · rintro ⟨entry, hentry, hreach, hstrays⟩
    obtain ⟨record, hrecord, rfl⟩ := Option.map_eq_some_iff.1 hentry
    exact ⟨record, hrecord, reaches_readEntry_iff.1 hreach,
      LookupRule.strays_ofRecord_iff.1 hstrays⟩
  · rintro ⟨record, hrecord, hreach, hescapes⟩
    exact ⟨(record, 0 + place), by rw [hrecord]; rfl, reaches_readEntry_iff.2 hreach,
      LookupRule.strays_ofRecord_iff.2 hescapes⟩

/-- A list of records becomes a table with exactly one rule for each record, or is refused with a
configuration error, unless the first record that cannot be read is one whose fault escapes: no
mapping, or with an infinity for a priority or a viewing group. -/
theorem ofRecords_settles_iff (records : List Value) :
    ((∃ t, ofRecords records = .ok t ∧ t.HasRuleOfEach records) ∨
        ∃ problem rule, ofRecords records = .error (.configuration problem rule)) ↔
      ∀ place record, records[place]? = some record →
        (∀ earlier < place, ∃ rule, ReadsAt records earlier rule) →
          ¬ LookupRule.Escapes record := by
  rw [exists_configuration_iff, settles_iff fun t ht => hasRuleOfEach_of_ofRecords ht,
    strays_ofRecords_iff]
  simp only [not_exists, not_and]

/-- A buoy whose priority is infinite. -/
def infinitePriority : Value :=
  .ofFields [("object_class", .text "BOYLAT"), ("table_set", .text "POINTS"),
    ("instruction", .text "SY(BOYLAT13)"), ("priority", .real (.infinite false))]

/-- An infinite priority and an entry that is a text are refused, and neither with a configuration
error. -/
theorem ofRecords_infinitePriority :
    ofRecords [infinitePriority] = .error (.data .infinityToInt) ∧
      ofRecords [.text "BOYLAT"] = .error (.data (.notAMapping "str")) := by
  constructor <;> cbv

end LookupTable

end ChartStyle
