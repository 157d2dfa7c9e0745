import ChartStyle.Catalog
import ChartStyle.Colour.Palette
import ChartStyle.Files.Action
import ChartStyle.Json.Reader
import ChartStyle.Json.Writer
import ChartStyle.Registry
import ChartStyle.Settings
import ChartStyle.Yaml.Format

/-!
# Tables and settings in files

Rule tables, palettes, symbol registries, feature catalogs and settings are read from JSON or YAML
files. That a table file cannot be read or is malformed is an error of the library that names the
file; faults of the file system and of the format of a settings file are passed on. Settings are
written too. The YAML of the files is a parameter (`Yaml.Format`).
-/

set_option autoImplicit false

namespace ChartStyle

/-- A path to a YAML file by its suffix. -/
def Path.isYaml (p : Path) : Bool := p.suffix == ".yaml" || p.suffix == ".yml"

/-- A path to a JSON file by its suffix. -/
def Path.isJson (p : Path) : Bool := p.suffix == ".json"

/-- The contents of a file in the format that `parse` reads, with the library's own errors for a
file that cannot be read and for a text that is not in the format. Other faults are passed on. -/
def readContents (t : FileTree) (p : Path) (parse : String → Except Fault Value)
    (unreadable unparsable : Fault) : Except Fault Value :=
  match t.read p >>= parse with
  | .ok v => .ok v
  | .error fault =>
    if fault.isFile then .error unreadable
    else if fault.isMalformed then .error unparsable
    else .error fault

/-! ## Tables -/

/-- The lookup table of a file: JSON by its suffix, otherwise YAML. -/
def LookupTable.load [Yaml.Format] (t : FileTree) (p : Path) : Except Fault LookupTable := do
  let parse := if p.isJson then Json.read else Yaml.Format.read
  let contents ← readContents t p parse
    (.configuration (.unreadableTable p.text) none) (.configuration (.unparsableTable p.text) none)
  match contents with
  | .list records => LookupTable.ofRecords records
  | _ => .error (.configuration (.tableNotAList p.text) none)

/-- The palette of a YAML file. -/
def Palette.load [Yaml.Format] (t : FileTree) (p : Path) : Except Fault Palette := do
  let contents ← readContents t p Yaml.Format.read
    (.configuration (.unreadablePalette p.text) none)
    (.configuration (.unparsablePalette p.text) none)
  match contents with
  | .map entries => Palette.ofValue (.map entries)
  | _ => .error (.configuration (.paletteNotAMapping p.text) none)

/-- The symbol registry of a JSON file. -/
def Registry.load (t : FileTree) (p : Path) : Except Fault Registry := do
  let contents ← readContents t p Json.read
    (.registry (.unreadable p.text)) (.registry (.malformed p.text))
  match contents with
  | .map entries => Registry.ofValue (.map entries)
  | _ => .error (.registry (.notAnObject p.text))

/-- The features that the contents of a catalog file list, either alone or in a collection. -/
def Catalog.records (contents : Value) : Value :=
  match contents with
  | .map entries =>
    match Entries.getD entries "type" with
    | .text "FeatureCollection" => (Entries.getD entries "features").orElse (.list [])
    | _ => .map entries
  | v => v

/-- The contents of a catalog file: YAML by its suffix, otherwise JSON. -/
def Catalog.parse [Yaml.Format] (p : Path) (text : String) : Except Fault Value :=
  if p.isYaml then Yaml.Format.read text else Json.read text

/-- The catalog of a file. -/
def Catalog.load [Yaml.Format] (t : FileTree) (p : Path) : Except Fault Catalog := do
  let contents ← readContents t p (Catalog.parse p)
    (.parameter (.unreadableCatalog p.text)) (.parameter (.unparsableCatalog p.text))
  match Catalog.records contents with
  | .list records => Catalog.ofRecords records
  | _ => .error (.parameter (.catalogNotAList p.text))

/-! ## Settings -/

namespace Settings

/-- Faults of the wrong type in the contents of a settings file, as the error that names it. -/
def blame {α : Type} (p : Path) : Except Fault α → Except Fault α
  | .error (.data fault) =>
    if fault.faultClass = .wrongType then
      .error (.configuration (.invalidConfiguration p.text fault.message) none)
    else .error (.data fault)
  | outcome => outcome

/-- The settings of a YAML or JSON file. -/
def load [Yaml.Format] (t : FileTree) (p : Path) : Except Fault Settings := do
  if t.contains p then
    let text ← t.read p
    let contents ←
      if p.isYaml then Yaml.Format.read text
      else if p.isJson then Json.read text
      else .error (.configuration (.unsupportedFormat p.suffix) none)
    blame p (ofValue contents)
  else .error (.file (.missingSettings p.text))

/-- The entries of a settings file. -/
def entries (s : Settings) : Entries :=
  match s.toValue with
  | .map entries => entries
  | _ => []

/-- Writes the settings to a YAML or JSON file, and makes the directories on the way to it. The
file is emptied before its format is looked at. -/
def save [Yaml.Format] (s : Settings) (p : Path) : Action Unit := do
  Action.change fun t => t.makeDirectory p.parent
  Action.change fun t => t.write p ""
  if p.isYaml then Action.change fun t => t.write p (Yaml.Format.write s.entries)
  else if p.isJson then Action.change fun t => t.write p (Json.write s.toValue)
  else Action.ofReport (.fail (.configuration (.unsupportedFormat p.suffix) none))

end Settings

end ChartStyle
