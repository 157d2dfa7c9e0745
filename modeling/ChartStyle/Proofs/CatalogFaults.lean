import ChartStyle.CommandLine.Run
import ChartStyle.Proofs.ReadLists
import ChartStyle.Proofs.RecordFaults

/-!
# What catalog files are refused for

A catalog file that cannot be read, is malformed, lists nothing, or holds an incomplete record is
refused with a parameter error. Records that are complete and unreadable are refused as their parts
are (`Feature.Escapes`): for an unknown table set, or for a value of the wrong kind where a mapping
is needed. Whatever reads the YAML files, loading gives one feature for each record, in their order,
or a parameter error, just when no such record is reached and the text itself is not refused in
another way than as malformed (`Catalog.load_settles_iff`).
-/

set_option autoImplicit false

namespace ChartStyle

/-- What a caller passes is malformed. -/
def Fault.IsParameter (fault : Fault) : Prop := ∃ problem, fault = .parameter problem

theorem exists_parameter_iff {α : Type} {outcome : Except Fault α} :
    (∃ problem, outcome = .error (.parameter problem)) ↔
      ∃ fault, outcome = .error fault ∧ fault.IsParameter := by
  constructor
  · rintro ⟨problem, h⟩
    exact ⟨_, h, problem, rfl⟩
  · rintro ⟨_, h, problem, rfl⟩
    exact ⟨problem, h⟩

/-- A value is of the wrong kind or out of range. -/
def Fault.IsData (fault : Fault) : Prop := ∃ problem, fault = .data problem

/-! ## Parts of a record -/

namespace Value

theorem not_strays_items {v : Value} : ¬ Strays Fault.IsData v.items := by
  cases v <;> simp [items, Fault.IsData]

theorem not_strays_toPair {v : Value} : ¬ Strays Fault.IsData v.toPair := by
  rw [toPair, strays_bind_iff]
  rintro (h | ⟨items, -, h⟩)
  · exact not_strays_items h
  · split at h
    · split at h
      · exact not_strays_pure h
      · simp [Fault.IsData] at h
    · simp [Fault.IsData] at h

/-- A value that stands for no mapping is of the wrong kind. -/
theorem not_strays_toEntries {v : Value} : ¬ Strays Fault.IsData v.toEntries := by
  unfold toEntries
  split
  · exact not_strays_ok
  · simp only [strays_bind_iff, strays_mapM_iff, not_strays_items, not_strays_toPair,
      not_strays_pure, and_false, exists_false, or_false, not_false_eq_true]

end Value

theorem AttributeSet.not_strays_entriesOf {v : Value} :
    ¬ Strays Fault.IsData (AttributeSet.entriesOf v) := by
  unfold AttributeSet.entriesOf
  split
  · simp only [strays_bind_iff, Value.not_strays_toEntries, not_strays_pure, and_false,
      exists_false, or_false, not_false_eq_true]
  · exact not_strays_pure

namespace Feature

/-- Faults of values are no parameter errors. -/
theorem strays_iff_of_data {α : Type} {outcome : Except Fault α}
    (h : ¬ Strays Fault.IsData outcome) :
    Strays Fault.IsParameter outcome ↔ ∀ a, outcome ≠ .ok a := by
  cases outcome with
  | ok a => simp
  | error fault =>
    rw [strays_error_iff, not_not] at h
    obtain ⟨problem, rfl⟩ := h
    simp [Fault.IsParameter]

theorem strays_or_exists_ok {α : Type} {outcome : Except Fault α}
    (h : ¬ Strays Fault.IsData outcome) :
    Strays Fault.IsParameter outcome ∨ ∃ a, outcome = .ok a := by
  rw [strays_iff_of_data h]
  cases outcome <;> simp

theorem strays_tableSet_iff {v : Value} :
    Strays Fault.IsParameter (TableSet.parse v) ↔ ∀ tableSet, TableSet.parse v ≠ .ok tableSet := by
  unfold TableSet.parse
  split <;> simp [Fault.IsParameter]

theorem strays_ofValues_iff {objectClass tableSet attributes longName : Value} :
    Strays Fault.IsParameter (ofValues objectClass tableSet attributes longName) ↔
      (∀ set, TableSet.parse tableSet ≠ .ok set) ∨
        ∀ entries, AttributeSet.entriesOf attributes ≠ .ok entries := by
  simp only [ofValues, strays_bind_iff, strays_tableSet_iff,
    strays_iff_of_data AttributeSet.not_strays_entriesOf, not_strays_pure, and_false, exists_false,
    or_false]
  constructor
  · rintro (hset | ⟨set, -, hattributes⟩)
    · exact .inl hset
    · exact .inr hattributes
  · rintro (hset | hattributes)
    · exact .inl hset
    · cases hset : TableSet.parse tableSet with
      | error fault => exact .inl fun set h => by cases h
      | ok set => exact .inr ⟨set, rfl, hattributes⟩

/-! ## Plain records -/

/-- The object class of a plain record. -/
def plainClass (entries : Entries) : Value :=
  (entries.getD "object_class").orElse (entries.getD "objectClass")

/-- The table set of a plain record. -/
def plainTableSet (entries : Entries) : Value :=
  ((entries.getD "table_set").orElse (entries.getD "tableSet")).orElse (entries.getD "geometry")

/-- The plain record has an object class and a table set. -/
def IsComplete (entries : Entries) : Prop :=
  (plainClass entries).isPresent = true ∧ (plainTableSet entries).isPresent = true

theorem strays_ofPlainRecord_iff {entries : Entries} :
    Strays Fault.IsParameter (ofPlainRecord entries) ↔
      IsComplete entries ∧
        ((∀ set, TableSet.parse (plainTableSet entries) ≠ .ok set) ∨
          ∀ attributes, AttributeSet.entriesOf (entries.getD "attributes") ≠ .ok attributes) := by
  unfold ofPlainRecord
  dsimp only
  rw [← plainClass, ← plainTableSet]
  split
  · next h =>
    rw [Bool.or_eq_true, Bool.not_eq_true', Bool.not_eq_true'] at h
    refine iff_of_false (by simp [Fault.IsParameter]) ?_
    rintro ⟨⟨hclass, hset⟩, -⟩
    simp [hclass, hset] at h
  · next h =>
    rw [Bool.or_eq_true, Bool.not_eq_true', Bool.not_eq_true', not_or, Bool.not_eq_false,
      Bool.not_eq_false] at h
    have hcomplete : IsComplete entries := h
    rw [strays_ofValues_iff, and_iff_right hcomplete]

/-! ## GeoJSON features -/

theorem not_strays_nested {v : Value} {key : String} : ¬ Strays Fault.IsData (nested v key) := by
  simp only [nested, strays_bind_iff, not_strays_pure, and_false, exists_false, or_false]
  rintro ⟨fault, hfault, hdata⟩
  exact hdata ⟨_, (Value.entries_eq_error_iff.1 hfault).2⟩

theorem strays_nested_iff {v : Value} {key : String} :
    Strays Fault.IsParameter (nested v key) ↔ v.isPresent = true ∧ ∀ inner, v ≠ .map inner := by
  simp only [nested, strays_bind_iff, not_strays_pure, and_false, exists_false, or_false]
  rw [Value.orElse]
  split
  · next hpresent =>
    rw [and_iff_right hpresent]
    cases v <;> simp [Value.entries, Fault.IsParameter]
  · next hpresent =>
    exact iff_of_false (by simp [Value.entries]) fun h => hpresent h.1

theorem nested_ne_ok {v w : Value} {key : String} (hpresent : v.isPresent = true)
    (hno : ∀ inner, v ≠ .map inner) : nested v key ≠ .ok w := by
  intro h
  have hstrays : Strays Fault.IsParameter (nested v key) := strays_nested_iff.2 ⟨hpresent, hno⟩
  rw [h] at hstrays
  exact not_strays_ok hstrays

theorem strays_geometryOf_iff {type : Value} :
    Strays Fault.IsParameter (geometryOf type) ↔ type.isKey = false := by
  unfold geometryOf
  split
  · simp [Value.isKey]
  · split <;> simp_all [Fault.IsParameter]

/-- The properties of a GeoJSON feature. -/
def propertiesOf (entries : Entries) : Except Fault Entries :=
  ((entries.getD "properties").orElse (.map [])).toEntries

theorem strays_propertiesOf_iff {entries : Entries} :
    Strays Fault.IsParameter (propertiesOf entries) ↔
      ∀ properties, propertiesOf entries ≠ .ok properties :=
  strays_iff_of_data Value.not_strays_toEntries

/-- The object class of a GeoJSON feature: the layer, or else a property. -/
def layerClass (properties : Entries) (layer : Value) : Value :=
  layer.orElse (properties.getD "OBJL_NAME")

theorem orElse_taking (properties : Entries) (layer : Value) :
    layer.orElse (taking properties "OBJL_NAME" (!layer.isPresent)).1 =
      layerClass properties layer := by
  rw [layerClass, Value.orElse, Value.orElse, taking]
  cases layer.isPresent <;> rfl

theorem not_strays_ofValues {objectClass longName : Value} {tableSet : TableSet}
    {entries : Entries} :
    ¬ Strays Fault.IsParameter
      (ofValues objectClass (.text tableSet.name) (.map entries) longName) := by
  rw [strays_ofValues_iff]
  rintro (hset | hattributes)
  · exact hset tableSet (by cases tableSet <;> decide +kernel)
  · rw [AttributeSet.entriesOf] at hattributes
    split at hattributes <;> exact hattributes _ rfl

/-- A GeoJSON feature is refused in another way than as incomplete for properties that are no
mapping, for a layer or geometry that is none, or for a geometry type that is no key. -/
theorem strays_ofGeoJson_iff {entries : Entries} :
    Strays Fault.IsParameter (ofGeoJson entries) ↔
      Strays Fault.IsParameter (propertiesOf entries) ∨
        ∃ properties, propertiesOf entries = .ok properties ∧
          (Strays Fault.IsParameter (nested (entries.getD "tippecanoe") "layer") ∨
            ∃ layer, nested (entries.getD "tippecanoe") "layer" = .ok layer ∧
              (Strays Fault.IsParameter (nested (entries.getD "geometry") "type") ∨
                ∃ type, nested (entries.getD "geometry") "type" = .ok type ∧
                  (layerClass properties layer).isPresent = true ∧ type.isKey = false)) := by
  simp only [ofGeoJson, strays_bind_iff, orElse_taking]
  refine or_congr Iff.rfl (exists_congr fun properties => and_congr_right fun _ => or_congr Iff.rfl
    (exists_congr fun layer => and_congr_right fun _ => or_congr Iff.rfl
      (exists_congr fun type => and_congr_right fun _ => ?_)))
  split
  · next hclass =>
    rw [and_iff_right hclass, strays_bind_iff, strays_geometryOf_iff, or_iff_left]
    rintro ⟨tableSet?, -, h⟩
    split at h
    · simp [Fault.IsParameter] at h
    · exact not_strays_ofValues h
  · next hclass => exact iff_of_false (by simp [Fault.IsParameter]) fun h => hclass h.1

/-! ## Records -/

/-- The record is a GeoJSON feature. -/
def IsGeoJson (entries : Entries) : Prop := entries.getD "type" = .text "Feature"

/-- The records that are refused in another way than as incomplete. -/
inductive Escapes : Value → Prop where
  /-- The record is no mapping. -/
  | noMapping {record : Value} (hrecord : ∀ entries, record ≠ .map entries) : Escapes record
  /-- There is no table set of that name. -/
  | tableSet {entries : Entries} (hplain : ¬ IsGeoJson entries) (hcomplete : IsComplete entries)
      (hunknown : ∀ set, TableSet.parse (plainTableSet entries) ≠ .ok set) : Escapes (.map entries)
  /-- The attributes stand for no mapping. -/
  | attributes {entries : Entries} (hplain : ¬ IsGeoJson entries) (hcomplete : IsComplete entries)
      (hattributes : ∀ attributes,
        AttributeSet.entriesOf (entries.getD "attributes") ≠ .ok attributes) :
      Escapes (.map entries)
  /-- The properties stand for no mapping. -/
  | properties {entries : Entries} (hgeo : IsGeoJson entries)
      (hproperties : ∀ properties, propertiesOf entries ≠ .ok properties) : Escapes (.map entries)
  /-- What should hold the layer or the geometry type is no mapping. -/
  | nesting {entries : Entries} {key : String} (hgeo : IsGeoJson entries)
      (hkey : key = "tippecanoe" ∨ key = "geometry")
      (hpresent : (entries.getD key).isPresent = true)
      (hno : ∀ inner, entries.getD key ≠ .map inner) : Escapes (.map entries)
  /-- The geometry type is a list or a mapping. -/
  | geometryType {entries properties : Entries} {layer type : Value} (hgeo : IsGeoJson entries)
      (hproperties : propertiesOf entries = .ok properties)
      (hlayer : nested (entries.getD "tippecanoe") "layer" = .ok layer)
      (hclass : (layerClass properties layer).isPresent = true)
      (htype : nested (entries.getD "geometry") "type" = .ok type) (hkey : type.isKey = false) :
      Escapes (.map entries)

theorem escapes_iff_of_geoJson {entries : Entries} (hgeo : IsGeoJson entries) :
    Strays Fault.IsParameter (ofGeoJson entries) ↔ Escapes (.map entries) := by
  rw [strays_ofGeoJson_iff]
  constructor
  · rintro (h | ⟨properties, hproperties, h | ⟨layer, hlayer, h | ⟨type, htype, hclass, hkey⟩⟩⟩)
    · exact .properties hgeo (strays_propertiesOf_iff.1 h)
    · obtain ⟨hpresent, hno⟩ := strays_nested_iff.1 h
      exact .nesting hgeo (.inl rfl) hpresent hno
    · obtain ⟨hpresent, hno⟩ := strays_nested_iff.1 h
      exact .nesting hgeo (.inr rfl) hpresent hno
    · exact .geometryType hgeo hproperties hlayer hclass htype hkey
  · intro h
    -- A part that is not read is refused at once; where all parts are read, the geometry type is
    -- what is left to go wrong.
    have hparts (key inner : String) : Strays Fault.IsParameter (nested (entries.getD key) inner) ∨
        ∃ v, nested (entries.getD key) inner = .ok v := strays_or_exists_ok not_strays_nested
    cases hproperties : propertiesOf entries with
    | error fault =>
      have hno : ∀ properties, propertiesOf entries ≠ .ok properties := by simp [hproperties]
      exact .inl (hproperties ▸ strays_propertiesOf_iff.2 hno)
    | ok properties =>
    refine .inr ⟨properties, rfl, ?_⟩
    refine (hparts "tippecanoe" "layer").imp_right fun ⟨layer, hlayer⟩ => ⟨layer, hlayer, ?_⟩
    refine (hparts "geometry" "type").imp_right fun ⟨type, htype⟩ => ⟨type, htype, ?_⟩
    cases h with
    | noMapping hrecord => exact absurd rfl (hrecord entries)
    | tableSet hplain => exact absurd hgeo hplain
    | attributes hplain => exact absurd hgeo hplain
    | properties _ hno => exact absurd hproperties (hno properties)
    | nesting _ hkey hpresent hno =>
      rcases hkey with rfl | rfl
      · exact absurd hlayer (nested_ne_ok hpresent hno)
      · exact absurd htype (nested_ne_ok hpresent hno)
    | geometryType _ hproperties' hlayer' hclass htype' hkey =>
      cases hproperties.symm.trans hproperties'
      cases hlayer.symm.trans hlayer'
      cases htype.symm.trans htype'
      exact ⟨hclass, hkey⟩

theorem escapes_iff_of_plain {entries : Entries} (hplain : ¬ IsGeoJson entries) :
    Strays Fault.IsParameter (ofPlainRecord entries) ↔ Escapes (.map entries) := by
  rw [strays_ofPlainRecord_iff]
  constructor
  · rintro ⟨hcomplete, hset | hattributes⟩
    · exact .tableSet hplain hcomplete hset
    · exact .attributes hplain hcomplete hattributes
  · intro h
    cases h with
    | noMapping hrecord => exact absurd rfl (hrecord entries)
    | tableSet _ hcomplete hset => exact ⟨hcomplete, .inl hset⟩
    | attributes _ hcomplete hattributes => exact ⟨hcomplete, .inr hattributes⟩
    | properties hgeo => exact absurd hgeo hplain
    | nesting hgeo => exact absurd hgeo hplain
    | geometryType hgeo => exact absurd hgeo hplain

/-- A record is read, refused as incomplete, or it is one of those that escape. -/
theorem strays_ofRecord_iff {record : Value} :
    Strays Fault.IsParameter (ofRecord record) ↔ Escapes record := by
  rw [ofRecord, strays_bind_iff]
  cases hentries : record.entries with
  | error fault =>
    obtain ⟨hno, rfl⟩ := Value.entries_eq_error_iff.1 hentries
    exact iff_of_true (.inl (by simp [Fault.IsParameter])) (.noMapping hno)
  | ok entries =>
    rw [Value.entries_eq_ok_iff] at hentries
    subst hentries
    rw [or_iff_right not_strays_ok]
    by_cases hgeo : IsGeoJson entries
    · rw [← escapes_iff_of_geoJson hgeo]
      constructor
      · rintro ⟨_, ⟨⟩, h⟩
        rwa [hgeo] at h
      · exact fun h => ⟨entries, rfl, by rwa [hgeo]⟩
    · rw [← escapes_iff_of_plain hgeo]
      constructor
      · rintro ⟨_, ⟨⟩, h⟩
        split at h
        · next hfeature => exact absurd hfeature hgeo
        · exact h
      · intro h
        refine ⟨entries, rfl, ?_⟩
        split
        · next hfeature => exact absurd hfeature hgeo
        · exact h

end Feature

/-! ## Catalog files -/

theorem FileTree.isFile_of_read {t : FileTree} {p : Path} {fault : Fault}
    (h : t.read p = .error fault) : fault.isFile = true := by
  rw [read, readAs] at h
  split at h
  · cases h
    rfl
  · split at h <;> cases h
    all_goals rfl

namespace Catalog

section

variable [Yaml.Format]

/-- What a file holds. -/
def contents (t : FileTree) (p : Path) : Except Fault Value := t.read p >>= parse p

/-- The file can be read and parsed, and lists the records. -/
def Lists (t : FileTree) (p : Path) (records : List Value) : Prop :=
  ∃ v, contents t p = .ok v ∧ Catalog.records v = .list records

/-- The text of the file is refused with the fault, and not as malformed. -/
def BreaksOff (t : FileTree) (p : Path) (fault : Fault) : Prop :=
  contents t p = .error fault ∧ fault.isFile = false ∧ fault.isMalformed = false

variable {t : FileTree} {p : Path} {records others : List Value} {fault : Fault}

/-- A file lists one sequence of records at most. -/
theorem Lists.eq (h : Lists t p records) (h' : Lists t p others) : records = others := by
  obtain ⟨v, hv, hrecords⟩ := h
  obtain ⟨w, hw, hothers⟩ := h'
  cases hv.symm.trans hw
  cases hrecords.symm.trans hothers
  rfl

theorem Lists.not_breaksOff (h : Lists t p records) : ¬ BreaksOff t p fault := by
  obtain ⟨v, hv, -⟩ := h
  rintro ⟨hfault, -⟩
  cases hv.symm.trans hfault

/-- A JSON text that is not read is malformed, so only a YAML text is refused in another way. -/
theorem BreaksOff.exists_read (h : BreaksOff t p fault) :
    ∃ text, Yaml.Format.read text = .error fault := by
  obtain ⟨hfault, hfile, hmalformed⟩ := h
  rw [contents, except_bind_eq_error_iff] at hfault
  rcases hfault with hread | ⟨text, -, hparse⟩
  · rw [FileTree.isFile_of_read hread] at hfile
    cases hfile
  · unfold parse at hparse
    split at hparse
    · exact ⟨text, hparse⟩
    · rw [Json.read_eq_error hparse] at hmalformed
      cases hmalformed

theorem BreaksOff.isOwn (h : BreaksOff t p fault) : fault.isOwn = false := by
  obtain ⟨text, hread⟩ := h.exists_read
  exact Yaml.Format.isOwn_of_read hread

theorem load_of_lists (h : Lists t p records) : load t p = ofRecords records := by
  obtain ⟨v, hv, hrecords⟩ := h
  rw [contents] at hv
  rw [load, readContents, hv]
  simp only [bind, Except.bind, hrecords]

theorem load_of_breaksOff (h : BreaksOff t p fault) : load t p = .error fault := by
  obtain ⟨hfault, hfile, hmalformed⟩ := h
  rw [contents] at hfault
  rw [load, readContents, hfault]
  simp only [hfile, hmalformed, Bool.false_eq_true, if_false]
  rfl

/-- A catalog file that cannot be read, is malformed, or lists no records is refused with a parameter
error. -/
theorem load_of_not_lists (hlists : ∀ records, ¬ Lists t p records)
    (hbreaks : ∀ fault, ¬ BreaksOff t p fault) :
    ∃ problem, load t p = .error (.parameter problem) := by
  cases hcontents : contents t p with
  | error fault =>
    have hloaded : t.read p >>= parse p = .error fault := hcontents
    rw [load, readContents, hloaded]
    cases hfile : fault.isFile with
    | true =>
      refine ⟨.unreadableCatalog p.text, ?_⟩
      simp only [hfile, if_true]
      rfl
    | false =>
      have hmalformed : fault.isMalformed = true := by
        by_contra hother
        exact hbreaks fault ⟨hcontents, hfile, Bool.eq_false_of_not_eq_true hother⟩
      refine ⟨.unparsableCatalog p.text, ?_⟩
      simp only [hfile, hmalformed, Bool.false_eq_true, if_false, if_true]
      rfl
  | ok v =>
    refine ⟨.catalogNotAList p.text, ?_⟩
    have hloaded : t.read p >>= parse p = .ok v := hcontents
    rw [load, readContents, hloaded]
    simp only [bind, Except.bind]
    split
    · next records hrecords => exact absurd ⟨v, hcontents, hrecords⟩ (hlists records)
    · rfl

/-- The three ways of loading a catalog: the file lists records, reading it breaks off, or it is
refused with a parameter error. -/
theorem load_cases (t : FileTree) (p : Path) :
    (∃ records, Lists t p records ∧ load t p = ofRecords records) ∨
      (∃ fault, BreaksOff t p fault ∧ load t p = .error fault) ∨
        ((∀ records, ¬ Lists t p records) ∧ (∀ fault, ¬ BreaksOff t p fault) ∧
          ∃ problem, load t p = .error (.parameter problem)) := by
  by_cases hlists : ∃ records, Lists t p records
  · obtain ⟨records, hrecords⟩ := hlists
    exact .inl ⟨records, hrecords, load_of_lists hrecords⟩
  by_cases hbreaks : ∃ fault, BreaksOff t p fault
  · obtain ⟨fault, hfault⟩ := hbreaks
    exact .inr (.inl ⟨fault, hfault, load_of_breaksOff hfault⟩)
  rw [not_exists] at hlists hbreaks
  exact .inr (.inr ⟨hlists, hbreaks, load_of_not_lists hlists hbreaks⟩)

/-- A catalog that is loaded has one feature for each record of the file, in their order. -/
theorem exists_lists_of_load {catalog : Catalog} (h : load t p = .ok catalog) :
    ∃ records, Lists t p records ∧
      List.Forall₂ (fun record f => Feature.ofRecord record = .ok f) records catalog := by
  rcases load_cases t p with ⟨records, hrecords, hload⟩ | ⟨fault, -, hload⟩ | ⟨-, -, problem, hload⟩
  · exact ⟨records, hrecords, mapM_eq_ok_iff.1 (hload.symm.trans h)⟩
  · cases h.symm.trans hload
  · cases h.symm.trans hload

/-- Loading a catalog strays from parameter errors just when reading the contents breaks off, or the
first record of the file that cannot be read escapes. -/
theorem strays_load_iff :
    Strays Fault.IsParameter (load t p) ↔ (∃ fault, BreaksOff t p fault) ∨
      ∃ records, Lists t p records ∧ ∃ place record, records[place]? = some record ∧
        Reaches Feature.ofRecord records place ∧ Feature.Escapes record := by
  rcases load_cases t p with
    ⟨records, hrecords, hload⟩ | ⟨fault, hfault, hload⟩ | ⟨hlists, hbreaks, problem, hload⟩
  · rw [hload, ofRecords, strays_mapM_iff,
      or_iff_right fun ⟨fault, hfault⟩ => hrecords.not_breaksOff hfault]
    simp only [Feature.strays_ofRecord_iff]
    constructor
    · exact fun h => ⟨records, hrecords, h⟩
    · rintro ⟨others, hothers, h⟩
      rwa [hrecords.eq hothers]
  · refine iff_of_true ?_ (.inl ⟨fault, hfault⟩)
    rw [hload, strays_error_iff]
    rintro ⟨problem, rfl⟩
    cases hfault.isOwn
  · rw [hload]
    refine iff_of_false (by simp [Fault.IsParameter]) ?_
    rintro (⟨fault, hfault⟩ | ⟨records, hrecords, -⟩)
    · exact hbreaks fault hfault
    · exact hlists records hrecords

/-- Loading a catalog gives one feature for each record of the file, in their order, or is refused
with a parameter error, unless YAML refuses the text in another way than as malformed, or the first
record that cannot be read is one whose fault escapes. -/
theorem load_settles_iff (t : FileTree) (p : Path) :
    ((∃ catalog, load t p = .ok catalog ∧ ∃ records, Lists t p records ∧
          List.Forall₂ (fun record f => Feature.ofRecord record = .ok f) records catalog) ∨
        ∃ problem, load t p = .error (.parameter problem)) ↔
      (∀ fault, ¬ BreaksOff t p fault) ∧
        ∀ records, Lists t p records → ∀ place record, records[place]? = some record →
          Reaches Feature.ofRecord records place → ¬ Feature.Escapes record := by
  rw [exists_parameter_iff, settles_iff fun catalog hload => exists_lists_of_load hload,
    strays_load_iff]
  simp only [not_or, not_exists, not_and]

end

/-! ## Two files -/

/-- A buoy in a table set that there is not. -/
def surfaceBuoy : Value :=
  .ofFields [("object_class", .text "BOYLAT"), ("table_set", .text "SURFACE")]

/-- The path of a catalog file. -/
def surfacePath : Path := ⟨false, ["chart.json"]⟩

/-- The text of a file that lists the buoy. -/
def surfaceText : String := "[\x7b\"object_class\": \"BOYLAT\", \"table_set\": \"SURFACE\"\x7d]"

/-- The file. -/
def surfaceFile : FileTree := ⟨[(surfacePath, .file surfaceText)]⟩

/-- A catalog that names an unknown table set is refused, and not with a parameter error. -/
theorem load_surfaceFile :
    load surfaceFile surfacePath = .error (.configuration (.unknownTableSet "SURFACE") none) := by
  have hread : Json.read surfaceText = .ok (.list [surfaceBuoy]) := by cbv
  have hlists : Lists surfaceFile surfacePath [surfaceBuoy] := by
    refine ⟨.list [surfaceBuoy], except_bind_eq_ok_iff.2 ⟨surfaceText, rfl, ?_⟩, rfl⟩
    rw [parse, if_neg (by decide)]
    exact hread
  rw [load_of_lists hlists]
  cbv

/-- The path of a catalog file in YAML. -/
def numberPath : Path := ⟨false, ["chart.yaml"]⟩

/-- A file that lists a number. -/
def numberFile : FileTree := ⟨[(numberPath, .file "[1]")]⟩

/-- A number is no record, and a catalog that lists one is not refused with a parameter error. -/
theorem load_settles_iff_numberFile : Lists numberFile numberPath [.int 1] ∧
    ¬ ((∃ catalog, load numberFile numberPath = .ok catalog ∧ ∃ records,
          Lists numberFile numberPath records ∧
            List.Forall₂ (fun record f => Feature.ofRecord record = .ok f) records catalog) ∨
        ∃ problem, load numberFile numberPath = .error (.parameter problem)) := by
  have hread : Yaml.read "[1]" = .ok (.list [.int 1]) := by cbv
  have hlists : Lists numberFile numberPath [.int 1] := by
    refine ⟨.list [.int 1], except_bind_eq_ok_iff.2 ⟨"[1]", rfl, ?_⟩, rfl⟩
    rw [parse, if_pos (by decide)]
    exact hread
  refine ⟨hlists, fun hsettles => ?_⟩
  obtain ⟨-, hkept⟩ := (load_settles_iff numberFile numberPath).1 hsettles
  have hreached : Reaches Feature.ofRecord [.int 1] 0 := fun earlier hearlier => by cases hearlier
  exact hkept _ hlists 0 (.int 1) rfl hreached (.noMapping fun entries h => by cases h)

end Catalog

end ChartStyle
