import ChartStyle.Lookup.Table
import ChartStyle.Procedure.Evaluate

/-!
# Feature catalogs

A catalog lists the features that a style is compiled for, in the order of their arrival: single
features, or groups of features with equal attribute values. It is read from records or from
GeoJSON features, or derived from a lookup table, with one group for each rule.
-/

set_option autoImplicit false

namespace ChartStyle

/-- A chart feature, or a group of features with equal attribute values. -/
structure Feature where
  objectClass : String
  tableSet : TableSet
  attributes : List (String × Value)
  /-- The long name, by which a single feature is told from all others. -/
  longName : Value
  deriving Inhabited

/-- The features of a style in the order of their arrival. -/
abbrev Catalog := List Feature

namespace Feature

/-- The attribute that holds the long name, which the renderer takes as the identifier. -/
def longNameField : String := "LNAM"

/-- The attributes of a feature with their object class. -/
def attributeSet (f : Feature) : AttributeSet :=
  { objectClass := f.objectClass, entries := f.attributes }

/-- The feature of an object class, a table set and the attributes that a value gives. -/
def ofValues (objectClass tableSet attributes longName : Value) : Except Fault Feature := do
  let tableSet ← TableSet.parse tableSet
  let attributes ← AttributeSet.entriesOf attributes
  return {
    objectClass := Text.upper (Text.trimmed objectClass.plain)
    tableSet
    attributes
    longName }

/-! ## Records -/

/-- Reads a record of the plain shape, in which some fields have several names. -/
def ofPlainRecord (entries : Entries) : Except Fault Feature :=
  let objectClass := (entries.getD "object_class").orElse (entries.getD "objectClass")
  let tableSet :=
    ((entries.getD "table_set").orElse (entries.getD "tableSet")).orElse (entries.getD "geometry")
  if !objectClass.isPresent || !tableSet.isPresent then
    .error (.parameter (.incompleteFeature (Value.map entries).shown))
  else
    ofValues objectClass tableSet (entries.getD "attributes")
      ((entries.getD "lnam").orElse (entries.getD longNameField))

/-- The entry of a mapping that may be missing itself. -/
def nested (v : Value) (key : String) : Except Fault Value := do
  return (← (v.orElse (.map [])).entries).getD key

/-- The table set of the geometry type that a value names. -/
def geometryOf (type : Value) : Except Fault (Option TableSet) :=
  match type with
  | .text name => .ok (TableSet.ofGeometry? name)
  | v => if v.isKey then .ok none else .error (.data (.notAKey v.kindName))

/-- The entries of a mapping without one key, when the value of that key is needed. -/
def taking (entries : Entries) (key : String) (needed : Bool) : Value × Entries :=
  if needed then (entries.getD key, entries.erase key) else (.null, entries)

/-- Reads a GeoJSON feature. The object class is the layer of the tiles, or else an attribute. -/
def ofGeoJson (entries : Entries) : Except Fault Feature := do
  let properties ← ((entries.getD "properties").orElse (.map [])).toEntries
  let layer ← nested (entries.getD "tippecanoe") "layer"
  let (named, properties) := taking properties "OBJL_NAME" (!layer.isPresent)
  let objectClass := layer.orElse named
  let type ← nested (entries.getD "geometry") "type"
  let incomplete : Fault :=
    .parameter (.incompleteGeoJson (entries.getD "id").shown)
  if objectClass.isPresent then
    match ← geometryOf type with
    | none => .error incomplete
    | some tableSet =>
      let longName := (properties.getD longNameField).orElse (entries.getD "id")
      ofValues objectClass (.text tableSet.name) (.map (properties.erase longNameField))
        (match longName with
          | .null => .null
          | v => .text v.plain)
  else .error incomplete

/-- Reads a feature from a record of either shape. -/
def ofRecord (record : Value) : Except Fault Feature := do
  let entries ← record.entries
  match entries.getD "type" with
  | .text "Feature" => ofGeoJson entries
  | _ => ofPlainRecord entries

/-- A feature as a mapping. -/
def toValue (f : Feature) : Value :=
  .ofFields [("object_class", .text f.objectClass), ("table_set", .text f.tableSet.name),
    ("attributes", .ofFields f.attributes), ("lnam", f.longName)]

end Feature

/-! ## Groups of rules -/

/-- The attributes with one value set; an attribute that is set again keeps its place. -/
def setAttribute : List (String × Value) → String → Value → List (String × Value)
  | [], code, value => [(code, value)]
  | (c, v) :: rest, code, value =>
    if c = code then (c, value) :: rest else (c, v) :: setAttribute rest code value

namespace LookupRule

/-- The codes that the procedures of a rule leave to the renderer. -/
def deferredCodes (r : LookupRule) : List String :=
  r.calls.flatMap fun call =>
    match call.procedure? with
    | .ok (some procedure) => procedure.attributeCodes
    | _ => []

/-- The attributes of the group that stands for a rule: its expected values, and marks for those
that must be there and for those that its procedures leave to the renderer. -/
def groupAttributes (r : LookupRule) : List (String × Value) :=
  let expected := r.constraints.foldl (fun attributes constraint =>
    setAttribute attributes constraint.code
      (match constraint.expected with
        | some value => .text value
        | none => .perFeature)) []
  r.deferredCodes.foldl (fun attributes code =>
    if attributes.any (·.1 == code) then attributes
    else attributes ++ [(code, .perFeature)]) expected

/-- The group that stands for a rule. -/
def group (r : LookupRule) : Feature :=
  { objectClass := r.objectClass
    tableSet := r.tableSet
    attributes := r.groupAttributes
    longName := .null }

end LookupRule

namespace Catalog

/-- Reads a catalog from records. -/
def ofRecords (records : List Value) : Except Fault Catalog := records.mapM Feature.ofRecord

/-- The catalog with one group for each rule of a table. -/
def ofTable (table : LookupTable) : Catalog := table.rules.map LookupRule.group

/-- The features of one table set. -/
def inTableSet (catalog : Catalog) (tableSet : TableSet) : List Feature :=
  catalog.filter fun f => f.tableSet == tableSet

/-- The feature at a position; negative positions count from the end. -/
def item (catalog : Catalog) (position : Int) : Except Fault Feature :=
  let fromStart := if position < 0 then position + catalog.length else position
  match fromStart with
  | .ofNat n =>
    match catalog[n]? with
    | some f => .ok f
    | none => .error (.data .missingPosition)
  | .negSucc _ => .error (.data .missingPosition)

end Catalog

end ChartStyle
