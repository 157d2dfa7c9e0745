import ChartStyle.Colour.Spec
import ChartStyle.Names

/-!
# Palettes

One table of colour tokens per display mode. Every mode defines the same tokens, so switching the
mode changes colours only; `Palette.ofValue` refuses tables that do not.
-/

set_option autoImplicit false

namespace ChartStyle

/-- The tokens of one mode with their colours `#rrggbb`. -/
abbrev ColourTable := List (String × String)

/-- The colours of the three display modes. -/
structure Palette where
  day : ColourTable
  dusk : ColourTable
  night : ColourTable
  deriving Inhabited

namespace Palette

/-- The table of a mode. -/
def table (p : Palette) : DisplayMode → ColourTable
  | .day => p.day
  | .dusk => p.dusk
  | .night => p.night

/-! ## Reading tables -/

/-- The table with one token set; a token that is set again keeps its place. -/
def setToken : ColourTable → String → String → ColourTable
  | [], token, colour => [(token, colour)]
  | (t, c) :: rest, token, colour =>
    if t = token then (t, colour) :: rest else (t, c) :: setToken rest token colour

/-- The colour of a token as a palette file gives it. -/
def readColour (token value : Value) : Except Fault (String × String) := do
  match ← Colour.hex? value with
  | some colour => return (token.plain, colour)
  | none => .error (.configuration (.invalidColour token.plain value.shown) none)

/-- Reads the table of one mode. -/
def readTable (v : Value) : Except Fault ColourTable := do
  let colours ← (← v.entries).mapM fun (token, value) => readColour token value
  return colours.foldl (fun table (token, colour) => setToken table token colour) []

/-- Reads the tables of all modes in the order of the file. -/
def readTables (v : Value) : Except Fault (List (DisplayMode × ColourTable)) := do
  (← v.entries).mapM fun (mode, table) => do
    return (← DisplayMode.parse mode, ← readTable table)

/-- The modes with their tables: in the order in which each mode was first given, with the table
that was given last. -/
def latest (tables : List (DisplayMode × ColourTable)) : List (DisplayMode × ColourTable) :=
  tables.foldl (fun seen (mode, table) =>
    if seen.any (·.1 == mode) then
      seen.map fun (m, t) => if m = mode then (m, table) else (m, t)
    else seen ++ [(mode, table)]) []

/-- The tokens of a table. -/
def tokensOf (table : ColourTable) : List String := table.map (·.1)

/-- The tokens of either table that the other lacks, in ascending order. -/
def difference (a b : ColourTable) : List String :=
  (((tokensOf a).filter fun t => !(tokensOf b).contains t)
    ++ ((tokensOf b).filter fun t => !(tokensOf a).contains t)).mergeSort fun s t => decide (s ≤ t)

/-- The first table with other tokens than those of the day is an error. -/
def checkTokens (day : ColourTable) : List (DisplayMode × ColourTable) → Except Fault Unit
  | [] => .ok ()
  | (mode, table) :: rest =>
    match difference table day with
    | [] => checkTokens day rest
    | tokens => .error (.configuration (.differentTokens mode.name tokens) none)

/-- The palette that a value describes: a mapping of modes to tables of colours. -/
def ofValue (v : Value) : Except Fault Palette := do
  let tables := latest (← readTables v)
  match DisplayMode.all.filter fun mode => !tables.any (·.1 == mode) with
  | [] =>
    let day := (tables.lookup .day).getD []
    checkTokens day tables
    return {
      day
      dusk := (tables.lookup .dusk).getD []
      night := (tables.lookup .night).getD [] }
  | missing => .error (.configuration (.missingModes (missing.map DisplayMode.name)) none)

/-! ## Using a palette -/

/-- The tokens in ascending order. -/
def tokens (p : Palette) : List String :=
  (tokensOf p.day).mergeSort fun s t => decide (s ≤ t)

/-- The palette defines the token. -/
def has (p : Palette) (token : String) : Bool := (p.day.lookup token).isSome

/-- The colour of a token in a mode. -/
def resolve (p : Palette) (mode : DisplayMode) (token : String) : Except Fault String :=
  match (p.table mode).lookup token with
  | some colour => .ok colour
  | none => .error (.configuration (.unknownColour token) none)

/-- The colour of a value that should be a token. -/
def resolveValue (p : Palette) (mode : DisplayMode) (v : Value) : Except Fault String :=
  match v with
  | .text token => p.resolve mode token
  | v =>
    if v.isKey then .error (.configuration (.unknownColour v.plain) none)
    else .error (.data (.notAKey v.kindName))

end Palette

end ChartStyle
