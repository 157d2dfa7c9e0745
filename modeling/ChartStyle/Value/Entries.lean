import ChartStyle.Fault
import ChartStyle.Value.Number

/-!
# Mappings

Entries are kept in the order in which their keys were first set; setting a key again replaces
its value in place.
-/

set_option autoImplicit false

namespace ChartStyle

namespace Entries

/-- The value of a key that is a text. -/
def get? (entries : Entries) (key : String) : Option Value :=
  (entries.find? fun (k, _) => k.sameKey (.text key)).map (·.2)

/-- The value of a key, null when there is none. -/
def getD (entries : Entries) (key : String) : Value := (get? entries key).getD .null

/-- The value of a key that must be there. -/
def require (entries : Entries) (key : String) : Except Fault Value :=
  match get? entries key with
  | some v => .ok v
  | none => .error (.data (.missingKey key))

/-- The entries with one key set. -/
def set : Entries → Value → Value → Entries
  | [], key, value => [(key, value)]
  | (k, v) :: rest, key, value =>
    if k.sameKey key then (k, value) :: rest else (k, v) :: set rest key value

/-- The entries without one key. -/
def erase (entries : Entries) (key : String) : Entries :=
  entries.filter fun (k, _) => !k.sameKey (.text key)

/-- The entries that result from setting the keys of a list one after the other. -/
def ofPairs (pairs : List (Value × Value)) : Entries :=
  pairs.foldl (fun entries (key, value) => set entries key value) []

end Entries

namespace Value

/-- The entries of a mapping; nothing else has any. -/
def entries : Value → Except Fault Entries
  | .map entries => .ok entries
  | v => .error (.data (.notAMapping v.kindName))

/-- The items of a value that can be gone through: those of a list, the characters of a text,
the keys of a mapping. -/
def items : Value → Except Fault (List Value)
  | .list items => .ok items
  | .text s => .ok (s.toList.map fun c => .text (String.ofList [c]))
  | .map entries => .ok (entries.map (·.1))
  | v => .error (.data (.notIterable v.kindName))

/-- The pair that a value with two items is. -/
def toPair (v : Value) : Except Fault (Value × Value) := do
  match ← v.items with
  | [key, value] =>
    if key.isKey then pure (key, value) else .error (.data (.notAKey key.kindName))
  | _ => .error (.data .notAPair)

/-- The mapping that a value stands for: a mapping itself, or a list of pairs. -/
def toEntries : Value → Except Fault Entries
  | .map entries => .ok entries
  | v => do
    let items ← v.items
    return Entries.ofPairs (← items.mapM toPair)

/-- The name of a key: of a text the text, of another value its JSON spelling. -/
def keyName : Value → String
  | .text s => s
  | .null => "null"
  | .bool b => if b then "true" else "false"
  | v => v.plain

end Value

end ChartStyle
