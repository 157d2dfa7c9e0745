import ChartStyle.Names
import ChartStyle.Text.Number
import ChartStyle.Text.Parts

/-!
# Values of options

The options of the command line are texts; some of them name a display mode or a table set, give
a whole number, or assign a value to an attribute.
-/

set_option autoImplicit false

namespace ChartStyle.CommandLine

/-- Why the text of an option cannot be read. -/
inductive ValueProblem where
  /-- The text names nothing that there is. -/
  | unknown (fault : Fault)
  /-- The text is no whole number. -/
  | notAWholeNumber (text : String)
  /-- The text assigns nothing, or to nothing. -/
  | notAnAssignment (text : String)
  deriving DecidableEq

/-- The wording of a value problem. -/
def ValueProblem.message : ValueProblem → String
  | .unknown fault => fault.message
  | .notAWholeNumber text => s!"Invalid whole number: {text}"
  | .notAnAssignment text => s!"Invalid attribute: {text}. Expected CODE=VALUE, e.g. CATLAM=1"

/-- A display mode by its name. -/
def readMode (text : String) : Except ValueProblem DisplayMode :=
  (DisplayMode.parse (.text text)).mapError .unknown

/-- A table set by its name. -/
def readTableSet (text : String) : Except ValueProblem TableSet :=
  (TableSet.parse (.text text)).mapError .unknown

/-- A whole number. -/
def readCount (text : String) : Except ValueProblem Int :=
  match Text.readInt? text with
  | some n => .ok n
  | none => .error (.notAWholeNumber text)

/-- An attribute code in upper case and its value, both without blanks around them. -/
def readAssignment (text : String) : Except ValueProblem (String × String) :=
  match Text.cutAt '=' text.toList with
  | (code, some value) =>
    if code.all Text.isBlank then .error (.notAnAssignment text)
    else
      .ok (Text.upper (String.ofList (Text.trim code)), String.ofList (Text.trim value))
  | (_, none) => .error (.notAnAssignment text)

end ChartStyle.CommandLine
