import ChartStyle.Files.Action
import ChartStyle.Json.Writer
import ChartStyle.Presentation

/-!
# Style documents

A style document binds the layers of a catalog to a vector source and to the sprites of a display
mode. `Presentation.compileStyle` compiles one; `Presentation.createStyle` also warns when there
were diagnostics, and writes the document to a file on demand.
-/

set_option autoImplicit false

namespace ChartStyle

/-! ## Documents -/

/-- The path of the sprites of a mode below a base; the base has a default and loses the slashes
at its end. -/
def spriteUrl (base : Option String) (mode : DisplayMode) : String :=
  let base :=
    match base with
    | none | some "" => "sprites"
    | some base => base
  String.ofList (base.toList.reverse.dropWhile (· == '/')).reverse ++ "/" ++ mode.lowerName

/-- A complete style. -/
structure StyleDocument where
  name : String
  sprite : String
  /-- The identifier of the vector source. -/
  sourceId : String
  /-- The description of the vector source. -/
  source : Entries
  layers : List Layer
  deriving Inhabited

namespace StyleDocument

/-- The name of a style unless it has one. -/
def defaultName : String := "S52 Style"

/-- The version of the style format. -/
def version : Int := 8

/-- Where the renderer finds the glyphs of a font. -/
def glyphs : String := "https://fonts.openmaptiles.org/\x7bfontstack\x7d/\x7brange\x7d.pbf"

/-- The description of the source with the attribute that identifies features; the source may
name another one. -/
def sourceEntries (d : StyleDocument) : Entries :=
  Entries.ofPairs ((.text "promoteId", .text Feature.longNameField) :: d.source)

/-- The entries of a document. -/
def fields (d : StyleDocument) : List (String × Value) :=
  [("version", .int version), ("name", .text d.name), ("sprite", .text d.sprite),
    ("glyphs", .text glyphs), ("sources", .ofFields [(d.sourceId, .map d.sourceEntries)]),
    ("layers", .list (d.layers.map Layer.toValue))]

/-- A document as a value. -/
def toValue (d : StyleDocument) : Value := .ofFields d.fields

/-- Writes a document to a file, and makes the directories on the way to it. -/
def save (d : StyleDocument) (p : Path) : Action Unit :=
  .change fun t => t.writeWithParents p (Json.write d.toValue)

end StyleDocument

/-! ## Compiling -/

/-- What a style is compiled from. -/
structure StyleRequest where
  /-- The description of the vector source, which must be a mapping. -/
  source : Value
  name : String := StyleDocument.defaultName
  sprite : Option String := none
  settings : Settings := {}
  /-- The features; without a catalog, the groups of the lookup table. -/
  catalog : Option Catalog := none

namespace Presentation

/-- Compiles a style. A mode that is given goes before that of the settings. -/
def compileStyle (p : Presentation) (r : StyleRequest) (mode : Option Value) :
    Report StyleDocument := do
  match r.source with
  | .map source =>
    let settings ←
      match mode with
      | some mode => do pure { r.settings with mode := ← DisplayMode.parse mode }
      | none => pure r.settings
    let layers ← p.build settings r.catalog
    return {
      name := r.name
      sprite := spriteUrl r.sprite settings.mode
      sourceId := settings.source.plain
      source
      layers }
  | v => .fail (.parameter (.sourceNotAMapping v.kindName))

/-- Notes that a style was compiled with diagnostics, when it was. -/
def warnOfDiagnostics (name : String) (count : Nat) : Report Unit :=
  if count = 0 then pure ()
  else .log .warning "enc_styles.api" s!"Style '{name}' compiled with {count} diagnostics"

/-- Compiles a style and writes it to a file on demand. -/
def createStyle (p : Presentation) (r : StyleRequest) (mode : Option Value)
    (output : Option Path) : Action StyleDocument := do
  let compiled := p.compileStyle r mode
  let document ← compiled
  warnOfDiagnostics r.name compiled.diagnostics.length
  match output with
  | some output => document.save output
  | none => pure ()
  return document

end Presentation

end ChartStyle
