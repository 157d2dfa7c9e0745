import ChartStyle.Catalog
import ChartStyle.Drawing.Check
import ChartStyle.Drawing.Draw

/-!
# The presentation library

The lookup table, the symbols and the palettes together are a `Presentation`. It exists only when
every call of its table passes the checks against its palette, so that bad tables are found
before any feature is compiled. `Presentation.build` compiles a catalog into layers: areas before
lines before points, stably sorted by the priority of their rules.
-/

set_option autoImplicit false

namespace ChartStyle

/-- Checks the calls of a rule. -/
def LookupRule.check (r : LookupRule) (palette : Palette) : Except Fault Unit :=
  r.calls.forM fun call => call.check palette r.name

/-- Checks the rules of a table, in its order. -/
def LookupTable.check (t : LookupTable) (palette : Palette) : Except Fault Unit :=
  t.rules.forM fun r => r.check palette

/-- The static tables that features are compiled with. -/
structure Presentation where
  table : LookupTable
  registry : Registry
  palette : Palette
  checked : table.check palette = .ok ()

namespace Presentation

/-- The presentation of three tables, when they pass the checks. -/
def ofTables (table : LookupTable) (registry : Registry) (palette : Palette) :
    Except Fault Presentation :=
  match h : table.check palette with
  | .ok () => .ok { table, registry, palette, checked := h }
  | .error fault => .error fault

/-! ## Filters -/

/-- The requirement that an attribute of a group has the value that it has in the group. -/
def pin (a : AttributeSet) (code : String) : Expr :=
  .equal (.toText (.get code)) (.text (a.raw code).normalForm)

/-- The codes whose values are known now and that a rule does not constrain, in ascending
order. -/
def pinnedCodes (r : LookupRule) (f : Feature) : List String :=
  ((f.attributes.map (·.1)).mergeSort fun c d => decide (c ≤ d)).filter fun code =>
    !(r.constraints.any (·.code == code)) && f.attributeSet.isKnown code

/-- The filter of the layers of a feature. A feature with a long name is told by it; a group by
its geometry, the conditions under which its rule wins, and the values of its attributes. -/
def filter (p : Presentation) (r : LookupRule) (f : Feature) : Expr :=
  if f.longName.isPresent then .equal .featureId (.value f.longName)
  else
    .all (.equal .geometryType (.text f.tableSet.geometry)
      :: (p.table.winningConditions r
        ++ (pinnedCodes r f).map fun code => pin f.attributeSet code))

/-! ## Compiling -/

/-- The notes on the rule that its layers carry. -/
def metadata (r : LookupRule) : List (String × Value) :=
  [("s52:priority", .int r.priority), ("s52:category", .text r.category.name),
    ("s52:viewing-group", .int r.viewingGroup), ("s52:table-set", .text r.tableSet.name),
    ("s52:instruction", .text r.instruction)]

/-- A layer with the priority of its rule. -/
structure RankedLayer where
  priority : Int
  layer : Layer

/-- What the calls of a table set are drawn with. -/
def context (p : Presentation) (s : Settings) (tableSet : TableSet) : DrawingContext :=
  { settings := s, palette := p.palette, registry := p.registry, tableSet }

/-- The layer of a fragment, numbered by the feature's place in the catalog and the fragment's in
the rule. -/
def layerOf (p : Presentation) (s : Settings) (index : Nat) (f : Feature) (rule : LookupRule)
    (position : Nat) (fragment : Fragment) : Layer where
  id := s!"{f.objectClass}-{index}-{position}"
  source := s.source.plain
  sourceLayer := f.objectClass
  filter := some (p.filter rule f)
  metadata := metadata rule
  fragment

/-- The layers of a feature: none without a rule, else one for each fragment of the rule. -/
def compileFeature (p : Presentation) (s : Settings) (index : Nat) (f : Feature) :
    Report (List RankedLayer) := do
  match p.table.select f.attributeSet f.tableSet with
  | none => return []
  | some rule =>
    let fragments ← Call.drawAll f.attributeSet (p.context s f.tableSet) rule.calls
    return fragments.zipIdx.map fun (fragment, position) =>
      { priority := rule.priority, layer := p.layerOf s index f rule position fragment }

/-- The layers of several features with their places in the catalog. -/
def compileAll (p : Presentation) (s : Settings) :
    List (Feature × Nat) → Report (List RankedLayer)
  | [] => pure []
  | (f, index) :: features => do
    let layers ← p.compileFeature s index f
    return layers ++ (← p.compileAll s features)

/-- The table sets in the order in which they are compiled: within one priority, points are drawn
above lines, and lines above areas. -/
def drawingOrder : List TableSet := [.areas, .lines, .points]

/-- The features of a catalog with their places, table set by table set. -/
def arranged (catalog : Catalog) : List (Feature × Nat) :=
  drawingOrder.flatMap fun tableSet => catalog.zipIdx.filter fun (f, _) => f.tableSet == tableSet

/-- Sorts layers by priority; equal priorities keep their order. -/
def sortLayers (layers : List RankedLayer) : List RankedLayer :=
  layers.mergeSort fun a b => decide (a.priority ≤ b.priority)

/-- The ranked layers of a catalog; without a catalog, those of the groups of the table. -/
def buildRanked (p : Presentation) (s : Settings) (catalog : Option Catalog) :
    Report (List RankedLayer) := do
  s.validate
  return sortLayers (← p.compileAll s (arranged (catalog.getD (Catalog.ofTable p.table))))

/-- The layers of a catalog, those drawn first in front. -/
def build (p : Presentation) (s : Settings) (catalog : Option Catalog) : Report (List Layer) := do
  return (← p.buildRanked s catalog).map (·.layer)

end Presentation

end ChartStyle
