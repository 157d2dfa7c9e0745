import ChartStyle.Double.Arith
import ChartStyle.Value.Entries

/-!
# The symbol registry

The index of the sprite sheet: where the image of each symbol lies, and how far its pivot point
is from the centre of the image. A name without an entry is a normal case.
-/

set_option autoImplicit false

namespace ChartStyle

/-- Two coordinates in pixels. -/
abbrev Point := Double × Double

/-- The placement of one symbol. -/
structure SymbolEntry where
  /-- The offset that moves the centre of the image onto the pivot. -/
  offset : Point
  /-- The pivot, from the top left corner of the image. -/
  pivot : Point
  /-- The image in the sheet. -/
  x : Double
  y : Double
  width : Double
  height : Double
  deriving Inhabited

namespace SymbolEntry

/-- A fault in the size or place of a symbol as the error that names the symbol: a missing field,
a value of the wrong type or one that cannot be read. Other faults stay as they are. -/
def blame {α : Type} (symbol : String) : Except Fault α → Except Fault α
  | .error (.data fault) =>
    match fault.faultClass with
    | .missingKey | .wrongType | .badValue =>
      .error (.registry (.invalidEntry symbol fault))
    | _ => .error (.data fault)
  | outcome => outcome

/-- The item of a value at position zero or one. -/
def item (v : Value) (position : Nat) : Except Fault Value :=
  match v with
  | .list items =>
    match items[position]? with
    | some item => .ok item
    | none => .error (.data .missingPosition)
  | .text s =>
    match s.toList[position]? with
    | some c => .ok (.text (String.ofList [c]))
    | none => .error (.data .missingPosition)
  | .map entries =>
    match entries.find? fun (key, _) => key.sameKey (.int position) with
    | some (_, value) => .ok value
    | none => .error (.data (.missingKey (toString position)))
  | v => .error (.data (.notIndexable v.kindName))

/-- The two coordinates that a value holds. -/
def readPoint (v : Value) : Except Fault Point := do
  let x ← (← item v 0).toDouble
  let y ← (← item v 1).toDouble
  return (x, y)

/-- The place and the size of an image. -/
def readBox (entries : Entries) : Except Fault (Double × Double × Double × Double) := do
  let x ← ((entries.get? "x").getD (.int 0)).toDouble
  let y ← ((entries.get? "y").getD (.int 0)).toDouble
  let width ← (← entries.require "width").toDouble
  let height ← (← entries.require "height").toDouble
  return (x, y, width, height)

/-- Reads the entry of a symbol. The pivot is the centre unless given, and the offset follows
from the pivot unless given. -/
def ofValue (symbol : String) (v : Value) : Except Fault SymbolEntry := do
  let entries ← v.entries
  let (x, y, width, height) ← blame symbol (readBox entries)
  let pivot ←
    match entries.get? "pivot" with
    | some pivot => readPoint pivot
    | none => pure (width / 2, height / 2)
  let offset ←
    match entries.getD "offset" with
    | .null => pure (width / 2 - pivot.1, height / 2 - pivot.2)
    | offset => readPoint offset
  return { offset, pivot, x, y, width, height }

/-- The entry of a symbol whose offset follows from its pivot. -/
def ofPivot (x y width height : Double) (pivot : Point) : SymbolEntry :=
  { offset := (width / 2 - pivot.1, height / 2 - pivot.2), pivot, x, y, width, height }

/-- Two coordinates as a list. -/
def pointValue (p : Point) : Value := .list [.real p.1, .real p.2]

/-- The entry as a mapping. -/
def toValue (e : SymbolEntry) : Value :=
  .ofFields [("offset", pointValue e.offset), ("pivot", pointValue e.pivot),
    ("bbox", .list [.real e.x, .real e.y, .real e.width, .real e.height])]

end SymbolEntry

/-- The symbols by name, in the order of the index. -/
structure Registry where
  symbols : List (String × SymbolEntry)
  deriving Inhabited

namespace Registry

/-- The registry that a value describes: a mapping of names to entries. -/
def ofValue (v : Value) : Except Fault Registry := do
  let symbols ← (← v.entries).mapM fun (name, entry) => do
    return (name.plain, ← SymbolEntry.ofValue name.plain entry)
  return { symbols }

/-- The entry of a symbol. -/
def find? (r : Registry) (name : String) : Option SymbolEntry := r.symbols.lookup name

/-- The entry of a value that should be a name. -/
def findValue? (r : Registry) (v : Value) : Except Fault (Option SymbolEntry) :=
  match v with
  | .text name => .ok (r.find? name)
  | v => if v.isKey then .ok none else .error (.data (.notAKey v.kindName))

/-- The registry as a mapping. -/
def toValue (r : Registry) : Value :=
  .ofFields (r.symbols.map fun (name, entry) => (name, entry.toValue))

end Registry

end ChartStyle
