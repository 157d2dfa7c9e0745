import ChartStyle.Double.Layout
import ChartStyle.Text.Quoted
import ChartStyle.Value.Basic

/-!
# Values in messages

`Value.shown` is the form in which messages and listings show a value: texts in quotes, lists in
brackets, mappings in braces. `Value.plain` differs for a text alone, which it gives as it is. A
whole number is shown with all its digits, and a value may be nested to any depth: the limits that an
interpreter sets on the digits of a number that becomes text, and on the depth of its recursion, are
left out.
-/

set_option autoImplicit false

namespace ChartStyle.Value

mutual

/-- The form in which a message shows a value. -/
def shown : Value → String
  | .null => "None"
  | .bool true => "True"
  | .bool false => "False"
  | .int n => toString n
  | .real x => x.toText
  | .text s => Text.quoted s
  | .list items => "[" ++ ", ".intercalate (shownItems items) ++ "]"
  | .map entries => "\x7b" ++ ", ".intercalate (shownEntries entries) ++ "\x7d"
  | .perFeature => "DATA_DRIVEN"

/-- The shown form of each item. -/
def shownItems : List Value → List String
  | [] => []
  | item :: items => shown item :: shownItems items

/-- The shown form of each entry. -/
def shownEntries : List (Value × Value) → List String
  | [] => []
  | (key, value) :: entries => (shown key ++ ": " ++ shown value) :: shownEntries entries

end

/-- The value as plain text. -/
def plain : Value → String
  | .text s => s
  | v => v.shown

/-- The shown form of a mapping's entries. -/
def showEntries (entries : Entries) : String := (Value.map entries).shown

end ChartStyle.Value
