import ChartStyle.Report
import ChartStyle.Text.Parts
import ChartStyle.Value.Entries

/-!
# Attributes of a feature

Tiles store attribute values loosely: numbers as numbers or texts, lists as arrays or comma
separated texts, unknown values as empty texts. An `AttributeSet` reads them as the type that is
asked for. A missing value is replaced by the caller's default without notice; a value that
cannot be read is replaced too, and a diagnostic says so.
-/

set_option autoImplicit false

namespace ChartStyle

/-- The object class of a feature and its attribute values by code. -/
structure AttributeSet where
  objectClass : String
  entries : List (String × Value)
  deriving Inhabited

/-- A value that says something: neither null nor an empty text or list. -/
def Value.isStated : Value → Bool
  | .null => false
  | .text s => s != ""
  | .list items => !items.isEmpty
  | _ => true

namespace AttributeSet

/-! ## Presence -/

/-- The value of an attribute, whatever it is. -/
def find? (a : AttributeSet) (code : String) : Option Value := a.entries.lookup code

/-- The attribute is there and says something. -/
def has (a : AttributeSet) (code : String) : Bool :=
  match a.find? code with
  | some v => v.isStated
  | none => false

/-- The value is known to the renderer only. -/
def isPerFeature (a : AttributeSet) (code : String) : Bool :=
  match a.find? code with
  | some .perFeature => true
  | _ => false

/-- The attribute has a value that is known now. -/
def isKnown (a : AttributeSet) (code : String) : Bool := a.has code && !a.isPerFeature code

/-- The value of an attribute that says something, known or not; else null. -/
def raw (a : AttributeSet) (code : String) : Value :=
  if a.has code then (a.find? code).getD .null else .null

/-- The value that is known now. -/
def known? (a : AttributeSet) (code : String) : Option Value :=
  if a.isKnown code then a.find? code else none

/-! ## Typed reading

Each reader gives nothing when the caller's default takes the place of the value; `standIn` is
that default, for the diagnostic. -/

/-- Notes that a value cannot be read. -/
def malformed {α : Type} (a : AttributeSet) (code : String) (v standIn : Value) :
    Report (Option α) := do
  Report.diagnose (.malformedAttribute code v standIn) a.objectClass
  return none

/-- The value as a text; the items of a list are joined by commas. -/
def getText (a : AttributeSet) (code : String) : Option String :=
  match a.known? code with
  | none => none
  | some (.list items) => some (",".intercalate (items.map Value.plain))
  | some v => some v.plain

/-- The value as a finite double. A whole number beyond the range of the doubles is a fault. -/
def getReal (a : AttributeSet) (code : String) (standIn : Value) : Report (Option Double) :=
  match a.known? code with
  | none => pure none
  | some v =>
    match v.toDouble with
    | .ok x => if x.isFinite then pure (some x) else a.malformed code v standIn
    | .error (.data .intTooLarge) => .fail (.data .intTooLarge)
    | .error _ => a.malformed code v standIn

/-- The value as a whole number. A value that is no number is reported with no stand-in. -/
def getInt (a : AttributeSet) (code : String) (standIn : Value) : Report (Option Int) := do
  match ← a.getReal code .null with
  | none => return none
  | some x =>
    if x.isWhole then return some x.truncate
    else a.malformed code ((a.find? code).getD .null) standIn

/-- The items of a list value: those of an array, or the parts of a text between commas. -/
def listItems : Value → List Value
  | .list items => items
  | v =>
    (Text.splitOn ',' v.plain).filterMap fun part =>
      if Text.isBlankText part then none else some (.text part)

/-- One item of a list value as a whole number. -/
def itemToInt (item : Value) : Except Fault Int := do Value.wholePart (← item.toDouble)

/-- The value as a list of whole numbers, empty when it is missing or cannot be read. Items
beyond the range of the doubles, infinities included, are faults. -/
def getInts (a : AttributeSet) (code : String) : Report (List Int) :=
  match a.known? code with
  | none => pure []
  | some v =>
    match (listItems v).mapM itemToInt with
    | .ok items => pure items
    | .error (.data .intTooLarge) => .fail (.data .intTooLarge)
    | .error (.data .infinityToInt) => .fail (.data .infinityToInt)
    | .error _ => do
      let _ ← a.malformed (α := Unit) code v (.list [])
      return []

/-! ## The whole set -/

/-- The attributes as a value. -/
def toValue (a : AttributeSet) : Value := .ofFields a.entries

/-- The listing of a set of attributes. -/
def shown (a : AttributeSet) : String :=
  s!"AttributeReference({Text.quoted a.objectClass}, {a.toValue.shown})"

/-- The attributes that a value gives: a mapping or a list of pairs; nothing when it is empty. -/
def entriesOf (v : Value) : Except Fault (List (String × Value)) := do
  if v.isPresent then
    let entries ← v.toEntries
    return entries.map fun (key, value) => (key.keyName, value)
  else return []

end AttributeSet

end ChartStyle
