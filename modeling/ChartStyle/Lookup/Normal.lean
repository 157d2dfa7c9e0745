import ChartStyle.Text.Number
import ChartStyle.Value.Show

/-!
# Normal form of attribute values

Attribute values are compared by their `normalForm`: a text without the blanks around it, and a
number in its shortest form, whole numbers without a fraction. So `1`, `1.0`, `"1"` and `" 1 "`
are one value. A list has the normal forms of its items, joined by commas. As in `Value.shown`, the
limits that an interpreter sets on the digits of a number and on the depth of its recursion are left
out.
-/

set_option autoImplicit false

namespace ChartStyle

/-- The normal form of a text: the number that it reads as, else the text without blanks. -/
def normalText (s : String) : String :=
  let text := Text.trimmed s
  match Text.readDouble? text with
  | none => text
  | some x => if x.isWhole then toString x.truncate else x.toText

namespace Value

mutual

/-- The text by which attribute values are compared. -/
def normalForm : Value → String
  | .list items => ",".intercalate (normalForms items)
  | .bool b => if b then "1" else "0"
  | v => normalText v.plain

/-- The normal form of each item. -/
def normalForms : List Value → List String
  | [] => []
  | item :: items => normalForm item :: normalForms items

end

end Value

end ChartStyle
