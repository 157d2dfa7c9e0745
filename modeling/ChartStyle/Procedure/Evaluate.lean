import ChartStyle.Instruction.Print
import ChartStyle.Procedure.Light

/-!
# Conditional symbology procedures

A procedure turns the attributes of a feature and the settings into ordinary calls. Where the
attribute it branches on is known to the renderer only, the calls hold a `Choice` that makes the
same distinction feature by feature.
-/

set_option autoImplicit false

namespace ChartStyle

namespace Procedure

/-- The attributes that a procedure leaves to the renderer when they are known there only. -/
def attributeCodes : Procedure → List String
  | .depare01 => ["DRVAL1"]
  | .depcnt02 => ["VALDCO"]
  | .lights05 => descriptionCodes
  | .obstrn04 => ["VALSOU"]
  | .soundg02 => ["DEPTH"]
  | .wrecks02 => ["VALSOU", "CATWRK"]

/-! ## Building calls -/

/-- A text call with its justification, character style, offset in character heights, colour and
display group. -/
def textCall (text : Argument) (hjust vjust : Int) (chars : String) (x y : Int) (colour : Argument)
    (group : Int) : Call :=
  ⟨.tx, [text, .int hjust, .int vjust, .int 2, .text chars, .int x, .int y, colour, .int group]⟩

/-- A simple line. -/
def lineCall (style : String) (width colour : Argument) : Call :=
  ⟨.ls, [.text style, width, colour]⟩

/-- A choice between two options by one condition. -/
def branch (condition : Expr) (option default : Value) : Choice :=
  { operator := .case, selector := .value .null, stops := [(condition, option)], default }

/-- A known depth: the attribute's value, `standIn` when that cannot be read. -/
def depth? (a : AttributeSet) (code : String) (standIn : Double) : Report (Option Double) := do
  if a.isKnown code then
    return some ((← a.getReal code (.real standIn)).getD standIn)
  else return none

/-! ## Soundings -/

/-- From this depth on, soundings are shown without tenths. -/
def wholeDepth : Double := 31

/-- The figure of a sounding, cut toward the surface: in tenths above `wholeDepth`. -/
def depthFigure (depth : Double) : String :=
  if depth.abs.less wholeDepth then
    let tenths := (depth * 10).truncate
    (Double.ofRatio (decide (tenths < 0)) tenths.natAbs 10).toFigure
  else toString depth.truncate

/-- A depth figure in the colour of its band. -/
def sounding (a : AttributeSet) (s : Settings) : Report (List Call) := do
  match ← depth? a "DEPTH" 0 with
  | none =>
    let colour ← depthChoice "DEPTH" (.real 0) s DepthBand.soundingColour
    return [textCall (.attribute "DEPTH") 1 2 "15108" 0 0 (.choice colour) 33]
  | some depth =>
    let band ← depthBand (.real depth) s
    return [textCall (.text (depthFigure depth)) 1 2 "15108" 0 0 (.text band.soundingColour) 33]

/-! ## Contours -/

/-- The value is the number `depth`. -/
def isDepth (v : Value) (depth : Double) : Bool :=
  match v.number? with
  | some n => Number.same (.real depth) n
  | none => false

/-- The attribute says that the position is only approximate. -/
def isApproximate (quality : Option Int) : Bool :=
  match quality with
  | some n => decide (2 ≤ n ∧ n ≤ 9)
  | none => false

/-- A depth contour; the safety contour is wider and has its own colour, and contours of
approximate position are dashed. -/
def contour (a : AttributeSet) (s : Settings) : Report (List Call) := do
  let depth ← depth? a "VALDCO" 0
  let quality ← a.getInt "QUAPOS" .null
  let style := if isApproximate quality then "DASH" else "SOLD"
  if a.isPerFeature "VALDCO" then
    let isSafety : Expr := .equal (numericAttribute "VALDCO" (.real 0)) (.value s.safetyDepth)
    return [lineCall style (.choice (branch isSafety (.int 2) (.int 1)))
      (.choice (branch isSafety (.text "DEPSC") (.text "DEPCN")))]
  else
    match depth with
    | some depth =>
      if isDepth s.safetyDepth depth then return [lineCall style (.int 2) (.text "DEPSC")]
      else return [lineCall style (.int 1) (.text "DEPCN")]
    | none => return [lineCall style (.int 1) (.text "DEPCN")]

/-! ## Depth areas -/

/-- The colour argument of a depth area by its shallowest depth; one that is missing or cannot be
read counts as drying. -/
def areaColour (a : AttributeSet) (s : Settings) : Report Argument := do
  if a.isPerFeature "DRVAL1" then
    return .choice (← depthChoice "DRVAL1" (.real (-1)) s DepthBand.areaColour)
  else
    let depth := (← depth? a "DRVAL1" (-1)).getD (-1)
    return .text (← depthBand (.real depth) s).areaColour

/-- A depth area; dredged areas have a pattern and an outline as well. -/
def depthArea (a : AttributeSet) (s : Settings) : Report (List Call) := do
  let fill : Call := ⟨.ac, [← areaColour a s]⟩
  if a.objectClass = "DRGARE" then
    return [fill, ⟨.ap, [.text "DRGARE01"]⟩, lineCall "DASH" (.int 1) (.text "CHGRF")]
  else return [fill]

/-! ## Lights -/

/-- The symbol argument of a light. -/
def flareArgument (a : AttributeSet) : Report Argument := do
  if a.isPerFeature "COLOUR" then return .choice flareChoice
  else return .text (flareSymbol (← a.getInts "COLOUR"))

/-- The turn of a light's flare. -/
def flareTurn (a : AttributeSet) : Report Double := do
  let first ← a.getReal "SECTR1" .null
  let second ← a.getReal "SECTR2" .null
  match first, second with
  | some first, some second => return sectorTurn first second
  | _, _ => return defaultTurn

/-- The description of a light as an argument, when there is one. -/
def descriptionArgument? (a : AttributeSet) : Report (Option Argument) := do
  if descriptionCodes.any a.isPerFeature then return some (.computed lightDescriptionExpr)
  else
    let description ← lightDescription a
    return if description = "" then none else some (.text description)

/-- A light: its flare, and its description beside it. -/
def light (a : AttributeSet) : Report (List Call) := do
  let symbol ← flareArgument a
  let turn ← flareTurn a
  let flare : Call := ⟨.sy, [symbol, .literal (.real turn)]⟩
  match ← descriptionArgument? a with
  | some description => return [flare, textCall description 3 2 "15110" 2 (-1) (.text "CHBLK") 23]
  | none => return [flare]

/-! ## Dangers -/

/-- Whether a danger is shallower than the safety depth: known now, or a condition for the
renderer. -/
inductive Danger where
  | known (dangerous : Bool)
  | deferred (condition : Expr)

/-- Whether the feature is shallower than the safety depth; without a depth it is not. -/
def danger (a : AttributeSet) (s : Settings) : Report Danger := do
  if a.isPerFeature "VALSOU" then
    return .deferred (.all [.has "VALSOU",
      .less (numericAttribute "VALSOU" (.real 0)) (.value s.safetyDepth)])
  else
    match ← depth? a "VALSOU" 0 with
    | some depth => return .known (← shallowerThan (.real depth) s.safetyDepth)
    | none => return .known false

/-- The symbol of an isolated danger. -/
def dangerSymbol : String := "ISODGR01"

/-- A symbol that is fixed or a choice of the renderer. -/
inductive SymbolPick where
  | fixed (name : String)
  | choice (c : Choice)

/-- The symbol as an argument. -/
def SymbolPick.toArgument : SymbolPick → Argument
  | .fixed name => .text name
  | .choice c => .choice c

/-- The symbol with the danger symbol in front of it under a condition. -/
def SymbolPick.guarded (condition : Expr) : SymbolPick → Choice
  | .fixed name => branch condition (.text dangerSymbol) (.text name)
  | .choice c =>
    { branch condition (.text dangerSymbol) c.default with
      stops := (condition, .text dangerSymbol) :: c.stops }

/-- Points have the symbol, or the danger symbol in its place; areas have a fill and an outline
with the danger symbol alone; lines have an outline. -/
def dangerCalls (d : Danger) (t : TableSet) (symbol : SymbolPick) : List Call :=
  let outline := lineCall "DOTT" (.int 2) (.text "CHBLK")
  match t with
  | .areas =>
    let fill : Call := ⟨.ac, [.text "DEPVS"]⟩
    match d with
    | .deferred condition =>
      [fill, outline, ⟨.sy, [.choice (branch condition (.text dangerSymbol) (.text ""))]⟩]
    | .known true => [fill, outline, ⟨.sy, [.text dangerSymbol]⟩]
    | .known false => [fill, outline]
  | .lines => [outline]
  | .points =>
    match d with
    | .deferred condition => [⟨.sy, [.choice (symbol.guarded condition)]⟩]
    | .known true => [⟨.sy, [.text dangerSymbol]⟩]
    | .known false => [⟨.sy, [symbol.toArgument]⟩]

/-- The symbols of wrecks by category. -/
def wreckSymbols : List (Int × String) := [(1, "WRECKS04"), (2, "WRECKS05")]

/-- The symbol of any other wreck. -/
def defaultWreck : String := "WRECKS01"

/-- The symbol of a wreck by its category. -/
def wreckSymbol (a : AttributeSet) : Report SymbolPick := do
  if a.isPerFeature "CATWRK" then
    let category := numericAttribute "CATWRK" (.int 0)
    return .choice {
      operator := .case
      selector := .value .null
      stops := wreckSymbols.map fun (code, name) =>
        (.equal category (.value (.int code)), .text name)
      default := .text defaultWreck }
  else
    let category ← a.getInt "CATWRK" .null
    return .fixed ((category.bind fun code => wreckSymbols.lookup code).getD defaultWreck)

/-- A wreck. -/
def wreck (a : AttributeSet) (s : Settings) (t : TableSet) : Report (List Call) := do
  let symbol ← wreckSymbol a
  return dangerCalls (← danger a s) t symbol

/-- The symbol of an obstruction: one whose depth is known has its own. -/
def obstructionSymbol (a : AttributeSet) : SymbolPick :=
  if a.isPerFeature "VALSOU" then
    .choice (branch (.has "VALSOU") (.text "OBSTRN01") (.text "OBSTRN11"))
  else if a.isKnown "VALSOU" then .fixed "OBSTRN01"
  else .fixed "OBSTRN11"

/-- An obstruction. -/
def obstruction (a : AttributeSet) (s : Settings) (t : TableSet) : Report (List Call) := do
  return dangerCalls (← danger a s) t (obstructionSymbol a)

/-! ## Running a procedure -/

/-- The calls of a procedure for a feature. -/
def evaluate (p : Procedure) (a : AttributeSet) (s : Settings) (t : TableSet) :
    Report (List Call) :=
  match p with
  | .depare01 => depthArea a s
  | .depcnt02 => contour a s
  | .lights05 => light a
  | .obstrn04 => obstruction a s t
  | .soundg02 => sounding a s
  | .wrecks02 => wreck a s t

/-- The procedure that a value names. -/
def parse (v : Value) : Except Fault Procedure :=
  match v with
  | .text name =>
    match ofName? name with
    | some p => .ok p
    | none => .error (.configuration (.unknownProcedure name) none)
  | v => .error (.configuration (.unknownProcedure v.plain) none)

end Procedure

end ChartStyle
