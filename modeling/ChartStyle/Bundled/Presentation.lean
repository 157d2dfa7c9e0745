import ChartStyle.Bundled.Colours
import ChartStyle.Bundled.Rules
import ChartStyle.Bundled.Symbols
import ChartStyle.Presentation

/-!
# The bundled presentation library

The tables that come with the library; a caller may replace each of them.
-/

set_option autoImplicit false

namespace ChartStyle.Bundled

/-- The presentation of the given tables, with the bundled ones in place of those that are
missing. -/
def presentation (table : Option LookupTable) (registry : Option Registry)
    (palette : Option Palette) : Except Fault Presentation := do
  let table ←
    match table with
    | some table => pure table
    | none => Bundled.table
  Presentation.ofTables table (registry.getD Bundled.registry) (palette.getD Bundled.palette)

end ChartStyle.Bundled
