import ChartStyle.Value.Show

/-!
# Diagnostics

Conditions that do not stop a compile: a symbol that the registry lacks, and an attribute value
that cannot be read and is replaced by a default.
-/

set_option autoImplicit false

namespace ChartStyle

/-- What a diagnostic reports. -/
inductive Finding where
  /-- The registry has no symbol of that name. -/
  | missingSymbol (name : Value)
  /-- The attribute has a value that cannot be read, and a default stands in for it. -/
  | malformedAttribute (code : String) (value standIn : Value)
  deriving Inhabited

/-- A condition met while compiling a feature, with the feature's object class. -/
structure Diagnostic where
  finding : Finding
  objectClass : Option String
  deriving Inhabited

/-- The two kinds of diagnostic. -/
inductive DiagnosticKind where
  | missingAsset
  | malformedAttribute
  deriving DecidableEq

namespace DiagnosticKind

/-- The name of a kind of diagnostic. -/
def name : DiagnosticKind → String
  | .missingAsset => "MissingAssetWarning"
  | .malformedAttribute => "MalformedAttributeValue"

/-- The kind of that name. -/
def ofName? (name : String) : Option DiagnosticKind :=
  [missingAsset, malformedAttribute].find? (·.name == name)

end DiagnosticKind

namespace Diagnostic

/-- The kind of a diagnostic. -/
def kind (d : Diagnostic) : DiagnosticKind :=
  match d.finding with
  | .missingSymbol _ => .missingAsset
  | .malformedAttribute _ _ _ => .malformedAttribute

/-- What the diagnostic is about: the symbol or the attribute code. -/
def name (d : Diagnostic) : Value :=
  match d.finding with
  | .missingSymbol name => name
  | .malformedAttribute code _ _ => .text code

/-- The wording of a diagnostic. -/
def message (d : Diagnostic) : String :=
  match d.finding with
  | .missingSymbol name => s!"Missing symbol: {name.plain}"
  | .malformedAttribute code value standIn =>
      s!"Attribute {code}={value.shown} is not valid, using {standIn.shown}"

/-- The line that lists a diagnostic: its kind, its object class unless empty, its message. -/
def line (d : Diagnostic) : String :=
  match d.objectClass with
  | none => s!"{d.kind.name}: {d.message}"
  | some "" => s!"{d.kind.name}: {d.message}"
  | some objectClass => s!"{d.kind.name}: {objectClass}: {d.message}"

end Diagnostic

end ChartStyle
