import ChartStyle.Text.Quoted
import ChartStyle.Value.Entries

/-!
# Writing JSON

`Json.write` writes a value as indented JSON, two spaces to a level. Everything beyond ASCII is
escaped, doubles are written in the shortest text that reads back, and the values that the
standard lacks are written `NaN`, `Infinity` and `-Infinity`.
-/

set_option autoImplicit false

namespace ChartStyle.Json

/-! ## Strings -/

/-- The escape of a code unit by its four hexadecimal digits. -/
def unitEscape (unit : Nat) : List Char := '\\' :: 'u' :: Text.hexDigits 4 unit

/-- A character as it stands in a string. -/
def escape (c : Char) : List Char :=
  if c = '"' then ['\\', '"']
  else if c = '\\' then ['\\', '\\']
  else if c = '\n' then ['\\', 'n']
  else if c = '\r' then ['\\', 'r']
  else if c = '\t' then ['\\', 't']
  else if c = '\x08' then ['\\', 'b']
  else if c = '\x0c' then ['\\', 'f']
  else if 0x20 ≤ c.toNat ∧ c.toNat < 0x7f then [c]
  else if c.toNat < 0x10000 then unitEscape c.toNat
  else
    unitEscape (0xd800 + (c.toNat - 0x10000) / 0x400)
      ++ unitEscape (0xdc00 + (c.toNat - 0x10000) % 0x400)

/-- A string in quotes. -/
def quote (s : String) : String := "\"" ++ String.ofList (s.toList.flatMap escape) ++ "\""

/-! ## Values -/

/-- A double. -/
def writeReal : Double → String
  | .nan => "NaN"
  | .infinite negative => if negative then "-Infinity" else "Infinity"
  | x => x.toText

/-- A key: that of a text, or the text of another value. -/
def writeKey : Value → String
  | .real x => quote (writeReal x)
  | v => quote v.keyName

/-- A new line at a level. -/
def newLine (level : Nat) : String := "\n" ++ String.ofList (List.replicate (2 * level) ' ')

mutual

/-- A value at a level. -/
def writeAt (level : Nat) : Value → String
  | .null => "null"
  | .bool b => if b then "true" else "false"
  | .int n => toString n
  | .real x => writeReal x
  | .text s => quote s
  | .list [] => "[]"
  | .list (item :: items) =>
      "[" ++ newLine (level + 1) ++ writeAt (level + 1) item ++ writeItems (level + 1) items
        ++ newLine level ++ "]"
  | .map [] => "\x7b\x7d"
  | .map ((key, v) :: entries) =>
      "\x7b" ++ newLine (level + 1) ++ writeKey key ++ ": " ++ writeAt (level + 1) v
        ++ writeEntries (level + 1) entries ++ newLine level ++ "\x7d"
  | .perFeature => "null"

/-- The further items of a list. -/
def writeItems (level : Nat) : List Value → String
  | [] => ""
  | item :: items => "," ++ newLine level ++ writeAt level item ++ writeItems level items

/-- The further entries of a mapping. -/
def writeEntries (level : Nat) : List (Value × Value) → String
  | [] => ""
  | (key, v) :: entries =>
      "," ++ newLine level ++ writeKey key ++ ": " ++ writeAt level v ++ writeEntries level entries

end

/-- A value as indented JSON. -/
def write (v : Value) : String := writeAt 0 v

end ChartStyle.Json
