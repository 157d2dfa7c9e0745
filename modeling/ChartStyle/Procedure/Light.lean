import ChartStyle.Attributes
import ChartStyle.Procedure.Depth
import ChartStyle.Settings

/-!
# Lights

The flare symbol of a light follows its first colour and turns toward its sector; beside it
stands an abbreviated description such as `Fl(2)WR.10s15m12M`. Both exist twice: computed now
from known attributes (`flareSymbol`, `lightDescription`), and as something the renderer computes
(`flareChoice`, `lightDescriptionExpr`).
-/

set_option autoImplicit false

namespace ChartStyle

/-! ## Abbreviations -/

/-- The abbreviations of light characters by their code. -/
def lightCharacters : List (Int × String) :=
  [(1, "F"), (2, "Fl"), (3, "LFl"), (4, "Q"), (5, "VQ"), (6, "UQ"), (7, "Iso"), (8, "Oc"),
    (9, "IQ"), (10, "IVQ"), (11, "IUQ"), (12, "Mo"), (13, "FFl"), (14, "Fl+LFl"), (15, "OcFl"),
    (16, "FLFl"), (17, "Al.Oc"), (18, "Al.LFl"), (19, "Al.Fl"), (20, "Al.Gr"), (25, "Q+LFl"),
    (26, "VQ+LFl"), (27, "UQ+LFl"), (28, "Al"), (29, "Al.FFl")]

/-- The abbreviations of colours by their code. -/
def colourAbbreviations : List (Int × String) :=
  [(1, "W"), (2, "Bl"), (3, "R"), (4, "G"), (5, "Bu"), (6, "Y"), (7, "Gy"), (8, "Br"),
    (9, "Am"), (10, "Vi"), (11, "Or"), (12, "Mg"), (13, "Pk")]

/-- The abbreviation of a code, empty when it has none. -/
def abbreviation (table : List (Int × String)) (code : Int) : String :=
  (table.lookup code).getD ""

/-! ## The flare symbol -/

/-- The flare symbols with the colour codes that they stand for. -/
def flareSymbols : List (List Int × String) :=
  [([3], "LIGHTS11"), ([4], "LIGHTS12"), ([1, 6, 11], "LIGHTS13")]

/-- The symbol of a light of any other colour, or of none. -/
def defaultFlare : String := "LITDEF11"

/-- The symbol for the first of the colours. -/
def flareSymbol (colours : List Int) : String :=
  match colours with
  | [] => defaultFlare
  | colour :: _ =>
    match flareSymbols.find? fun (codes, _) => codes.contains colour with
    | some (_, symbol) => symbol
    | none => defaultFlare

/-- The texts with which an attribute starts up to its first comma when its first colour is the
given one: as a number or text, as the start of an array text, as an array text of one item. -/
def colourLabels (code : Int) : List Value :=
  [.text s!"{code}", .text s!"[{code}", .text s!"[{code}]"]

/-- The text of the colour attribute up to its first comma. -/
def firstColourExpr : Expr :=
  let list : Expr := .concat [.toText (.get "COLOUR"), .text ","]
  .slice list (.value (.int 0)) (.indexOf (.text ",") list)

/-- The flare symbol as a choice of the renderer. -/
def flareChoice : Choice :=
  { operator := .pick
    selector := firstColourExpr
    stops := flareSymbols.map fun (codes, symbol) =>
      (.value (.list (codes.flatMap colourLabels)), .text symbol)
    default := .text defaultFlare }

/-! ## The sector -/

/-- The turn of a flare without a sector, in degrees. -/
def defaultTurn : Double := 135

/-- The turn of a flare with a sector: sector limits are bearings from seaward, so the flare lies
on the reciprocal of the bisector. Equal limits are a full circle. -/
def sectorTurn (first second : Double) : Double :=
  let difference := (second - first).floorMod 360
  let span := if difference.isZero then 360 else difference
  ((first + span / 2 + 180).floorMod 360).roundPlaces 1

/-! ## The description -/

/-- The attributes that a description reads. -/
def descriptionCodes : List String := ["LITCHR", "SIGGRP", "COLOUR", "SIGPER", "HEIGHT", "VALNMR"]

/-- A figure of a description: whole numbers without a fraction. -/
def figure (x : Double) : String := if x.isWhole then toString x.truncate else x.toFigure

/-- A figure with its unit, nothing when there is none. -/
def suffixed (x : Option Double) (suffix : String) : String :=
  match x with
  | some x => figure x ++ suffix
  | none => ""

/-- The group of a light as it is described: the trivial group of one flash is left out. -/
def groupText (group : Option String) : String :=
  match group with
  | none => ""
  | some group =>
    let text := Text.trimmed group
    if group = "" ∨ text = "()" ∨ text = "(1)" then "" else text

/-- The abbreviated description of a light. -/
def lightDescription (a : AttributeSet) : Report String := do
  let character ← a.getInt "LITCHR" .null
  let group := a.getText "SIGGRP"
  let colours ← a.getInts "COLOUR"
  let kind := ((character.map (abbreviation lightCharacters)).getD "")
    ++ groupText group
    ++ String.join (colours.map (abbreviation colourAbbreviations))
  let period ← a.getReal "SIGPER" .null
  let height ← a.getReal "HEIGHT" .null
  let range ← a.getReal "VALNMR" .null
  let separator := if period.isSome && kind != "" then "." else ""
  return kind ++ separator ++ suffixed period "s" ++ suffixed height "m" ++ suffixed range "M"

/-- The text of an attribute with a suffix, empty when the feature has none. -/
def suffixedExpr (code suffix : String) : Expr :=
  .cases [(.has code, .concat [.toText (.get code), .text suffix])] (.text "")

/-- The description of a light as the renderer computes it. Only single colours are abbreviated. -/
def lightDescriptionExpr : Expr :=
  let character : Expr :=
    .pick (numericAttribute "LITCHR" (.int 0))
      (lightCharacters.map fun (code, text) => (.int code, .text text)) (.text "")
  let group : Expr :=
    .pick (.toText (.get "SIGGRP")) [(Value.ofTexts ["", "()", "(1)"], .text "")]
      (.toText (.get "SIGGRP"))
  let colour : Expr :=
    .pick (.toText (.get "COLOUR"))
      (colourAbbreviations.map fun (code, text) =>
        (Value.ofTexts [s!"{code}", s!"[{code}]"], .text text)) (.text "")
  let period : Expr :=
    .cases [(.has "SIGPER",
      .concat [.cases [(.any [.has "LITCHR", .has "COLOUR"], .text ".")] (.text ""),
        .toText (.get "SIGPER"), .text "s"])] (.text "")
  .concat [character, group, colour, period, suffixedExpr "HEIGHT" "m",
    suffixedExpr "VALNMR" "M"]

end ChartStyle
