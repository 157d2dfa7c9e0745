import ChartStyle.Double.Basic

/-!
# Values

The data of rule tables, catalogs, palettes and style documents: what JSON and YAML files hold,
with whole numbers of any size kept apart from doubles and the entries of a mapping in their
order. One further value, `Value.perFeature`, marks an attribute that every feature carries but
only the renderer knows.
-/

set_option autoImplicit false

namespace ChartStyle

/-- A piece of data. -/
inductive Value where
  | null
  | bool (b : Bool)
  | int (n : Int)
  | real (x : Double)
  | text (s : String)
  | list (items : List Value)
  | map (entries : List (Value × Value))
  /-- Present on the features, read by the renderer. -/
  | perFeature
  deriving Inhabited

/-- The entries of a mapping, in order. -/
abbrev Entries := List (Value × Value)

namespace Value

/-- The word for the kind of a value in messages. -/
def kindName : Value → String
  | .null => "NoneType"
  | .bool _ => "bool"
  | .int _ => "int"
  | .real _ => "float"
  | .text _ => "str"
  | .list _ => "list"
  | .map _ => "dict"
  | .perFeature => "_DataDriven"

/-- A value that stands for something: not null, false, a zero, or an empty text or collection. -/
def isPresent : Value → Bool
  | .null => false
  | .bool b => b
  | .int n => n != 0
  | .real x => !x.isZero
  | .text s => s != ""
  | .list items => !items.isEmpty
  | .map entries => !entries.isEmpty
  | .perFeature => true

/-- The first value that stands for something, else the second. -/
def orElse (v : Value) (other : Value) : Value := if v.isPresent then v else other

/-- A value that a mapping can have as a key. -/
def isKey : Value → Bool
  | .list _ => false
  | .map _ => false
  | _ => true

/-- A mapping whose keys are texts. -/
def ofFields (fields : List (String × Value)) : Value :=
  .map (fields.map fun (key, value) => (.text key, value))

/-- A list of texts. -/
def ofTexts (texts : List String) : Value := .list (texts.map .text)

/-- An optional text, null when there is none. -/
def ofText? : Option String → Value
  | none => .null
  | some s => .text s

end Value

end ChartStyle
