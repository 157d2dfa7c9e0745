import ChartStyle.Names
import ChartStyle.Report
import ChartStyle.Value.Entries

/-!
# Settings

The display mode, the vector source and the three depth thresholds of a compile. Settings may
hold any values until `Settings.validate` has passed them: numeric thresholds and a named source.
Thresholds out of order are allowed, with a warning.
-/

set_option autoImplicit false

namespace ChartStyle

/-- The settings of a compile. -/
structure Settings where
  mode : DisplayMode := .day
  /-- The identifier of the vector source. -/
  source : Value := .text "enc"
  shallowDepth : Value := .real 3
  safetyDepth : Value := .real 6
  deepDepth : Value := .real 9
  deriving Inhabited

namespace Settings

/-- The logger of settings. -/
def logger : String := "enc_styles.config"

/-- Sets one field by its name. -/
def setField (s : Settings) (name : String) (v : Value) : Except Fault Settings :=
  if name = "mode" then do return { s with mode := ← DisplayMode.parse v }
  else if name = "source_id" then .ok { s with source := v }
  else if name = "shallow_depth" then .ok { s with shallowDepth := v }
  else if name = "safety_depth" then .ok { s with safetyDepth := v }
  else if name = "deep_depth" then .ok { s with deepDepth := v }
  else .error (.data (.unexpectedSetting name))

/-- The names of the fields. -/
def fieldNames : List String :=
  ["mode", "source_id", "shallow_depth", "safety_depth", "deep_depth"]

/-- The name of a field that is to be set. -/
def fieldName (key : Value) : Except Fault String :=
  match key with
  | .text name => .ok name
  | _ => .error (.data .unnamedSetting)

/-- Sets the fields that a mapping names. Names are checked before any value is. -/
def change (s : Settings) (entries : Entries) : Except Fault Settings := do
  let names ← entries.mapM fun (key, _) => fieldName key
  match names.find? fun name => !fieldNames.contains name with
  | some name => .error (.data (.unexpectedSetting name))
  | none =>
    (names.zip (entries.map (·.2))).foldlM (fun s (name, v) => s.setField name v) s

/-- The settings that a mapping describes, with defaults for the others. -/
def ofEntries (entries : Entries) : Except Fault Settings := change {} entries

/-- The settings that the contents of a file describe; empty contents describe the defaults. -/
def ofValue (v : Value) : Except Fault Settings :=
  match v.orElse (.map []) with
  | .map entries => ofEntries entries
  | v => .error (.data (.settingsNotAMapping v.kindName))

/-- The thresholds with their names. -/
def thresholds (s : Settings) : List (String × Value) :=
  [("shallow_depth", s.shallowDepth), ("safety_depth", s.safetyDepth),
    ("deep_depth", s.deepDepth)]

/-- A number that is no truth value. -/
def numeric? : Value → Option Number
  | .int n => some (.whole n)
  | .real x => some (.real x)
  | _ => none

/-- A threshold must be a number. -/
def checkThreshold (name : String) (v : Value) : Except Fault Number :=
  match numeric? v with
  | some n => .ok n
  | none => .error (.configuration (.nonNumericThreshold name v.shown) none)

/-- Checks the settings; thresholds out of order are only reported. -/
def validate (s : Settings) : Report Unit := do
  let shallow ← checkThreshold "shallow_depth" s.shallowDepth
  let safety ← checkThreshold "safety_depth" s.safetyDepth
  let deep ← checkThreshold "deep_depth" s.deepDepth
  match s.source with
  | .text source =>
    if source = "" then Report.fail (.configuration .missingSource none) else pure ()
  | _ => Report.fail (.configuration .missingSource none)
  if !(shallow.lessEq safety && safety.lessEq deep) then
    Report.log .warning logger
      (s!"Depth thresholds out of order: shallow={s.shallowDepth.plain} "
        ++ s!"safety={s.safetyDepth.plain} deep={s.deepDepth.plain}")

/-- The settings as a mapping, the mode by its name. -/
def toValue (s : Settings) : Value :=
  .ofFields [("mode", .text s.mode.name), ("source_id", s.source),
    ("shallow_depth", s.shallowDepth), ("safety_depth", s.safetyDepth),
    ("deep_depth", s.deepDepth)]

end Settings

end ChartStyle
