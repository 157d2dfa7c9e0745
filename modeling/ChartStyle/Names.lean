import ChartStyle.Fault
import ChartStyle.Text.Blank
import ChartStyle.Text.Upper
import ChartStyle.Value.Show

/-!
# Table sets, categories and display modes

The closed sets that tables and settings name: the table a rule belongs to, which implies the
geometry it draws; the display category of a rule; and the display mode that picks a palette.
Names are read in any case and with blanks around them, the categories without blanks.
-/

set_option autoImplicit false

namespace ChartStyle

/-! ## Table sets -/

/-- The lookup table of a geometry. -/
inductive TableSet where
  | points
  | lines
  | areas
  deriving DecidableEq, Inhabited

namespace TableSet

/-- The name of a table set. -/
def name : TableSet → String
  | .points => "POINTS"
  | .lines => "LINES"
  | .areas => "AREAS"

/-- The table set that a name in upper case stands for. -/
def ofName? (name : String) : Option TableSet :=
  if name = "POINTS" ∨ name = "POINT" then some .points
  else if name = "LINES" ∨ name = "LINE" then some .lines
  else if name = "AREAS" ∨ name = "AREA" ∨ name = "POLYGON" then some .areas
  else none

/-- The table set that a value names. -/
def parse (v : Value) : Except Fault TableSet :=
  match ofName? (Text.upper (Text.trimmed v.plain)) with
  | some t => .ok t
  | none => .error (.configuration (.unknownTableSet v.plain) none)

/-- The name that renderer filters have for the geometry of a table set. -/
def geometry : TableSet → String
  | .points => "Point"
  | .lines => "LineString"
  | .areas => "Polygon"

/-- The table set of a geometry type. -/
def ofGeometry? (type : String) : Option TableSet :=
  if type = "Point" ∨ type = "MultiPoint" then some .points
  else if type = "LineString" ∨ type = "MultiLineString" then some .lines
  else if type = "Polygon" ∨ type = "MultiPolygon" then some .areas
  else none

end TableSet

/-! ## Display categories -/

/-- The display category of a rule. -/
inductive DisplayCategory where
  | displayBase
  | base
  | standard
  | other
  deriving DecidableEq, Inhabited

namespace DisplayCategory

/-- The name of a category. -/
def name : DisplayCategory → String
  | .displayBase => "DISPLAYBASE"
  | .base => "BASE"
  | .standard => "STANDARD"
  | .other => "OTHER"

/-- The category of that name. -/
def ofName? (name : String) : Option DisplayCategory :=
  [displayBase, base, standard, other].find? (·.name == name)

/-- The category that a value names. -/
def parse (v : Value) : Except Fault DisplayCategory :=
  let name := Text.upper v.plain
  match ofName? name with
  | some category => .ok category
  | none => .error (.data (.unknownMember name "DisplayCategory"))

end DisplayCategory

/-! ## Display modes -/

/-- The colour scheme for the light on the bridge. -/
inductive DisplayMode where
  | day
  | dusk
  | night
  deriving DecidableEq, Inhabited

namespace DisplayMode

/-- All display modes. -/
def all : List DisplayMode := [day, dusk, night]

/-- The name of a mode. -/
def name : DisplayMode → String
  | .day => "DAY"
  | .dusk => "DUSK"
  | .night => "NIGHT"

/-- The name of a mode in file names and paths. -/
def lowerName : DisplayMode → String
  | .day => "day"
  | .dusk => "dusk"
  | .night => "night"

/-- The mode of that name. -/
def ofName? (name : String) : Option DisplayMode := all.find? (·.name == name)

/-- The mode that a value names. -/
def parse (v : Value) : Except Fault DisplayMode :=
  match ofName? (Text.upper (Text.trimmed v.plain)) with
  | some mode => .ok mode
  | none => .error (.configuration (.unknownMode v.plain) none)

end DisplayMode

end ChartStyle
