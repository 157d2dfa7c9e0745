import ChartStyle.Diagnostic
import ChartStyle.Fault

/-!
# Reports

An operation that may fail and that notes things on the way gives a `Report`: the events in the
order in which they were noted, and the outcome. A failure keeps the events before it.
-/

set_option autoImplicit false

namespace ChartStyle

/-- The severity of a log record. -/
inductive Level where
  | debug
  | info
  | warning
  | error
  | critical
  deriving DecidableEq

namespace Level

/-- The order of the levels. -/
def rank : Level → Nat
  | .debug => 10
  | .info => 20
  | .warning => 30
  | .error => 40
  | .critical => 50

/-- The name of a level. -/
def name : Level → String
  | .debug => "DEBUG"
  | .info => "INFO"
  | .warning => "WARNING"
  | .error => "ERROR"
  | .critical => "CRITICAL"

/-- The level of that name. -/
def ofName? (name : String) : Option Level :=
  [debug, info, warning, error, critical].find? (·.name == name)

end Level

/-- A line for the log, from the part of the program that `logger` names. -/
structure LogRecord where
  level : Level
  logger : String
  message : String
  deriving DecidableEq

/-- What is noted on the way. -/
inductive Event where
  | diagnostic (d : Diagnostic)
  | log (record : LogRecord)

/-- The events of an operation and its outcome. -/
structure Report (α : Type) where
  events : List Event
  outcome : Except Fault α

namespace Report

variable {α β : Type}

/-- A value, with nothing noted. -/
def done (a : α) : Report α := ⟨[], .ok a⟩

/-- A failure, with nothing noted. -/
def fail (fault : Fault) : Report α := ⟨[], .error fault⟩

/-- An outcome, with nothing noted. -/
def ofExcept (outcome : Except Fault α) : Report α := ⟨[], outcome⟩

/-- One event. -/
def note (event : Event) : Report Unit := ⟨[event], .ok ()⟩

/-- One diagnostic. -/
def diagnose (finding : Finding) (objectClass : String) : Report Unit :=
  note (.diagnostic ⟨finding, some objectClass⟩)

/-- One log record. -/
def log (level : Level) (logger message : String) : Report Unit :=
  note (.log ⟨level, logger, message⟩)

/-- First one operation, then the one that its value leads to. -/
def andThen (r : Report α) (f : α → Report β) : Report β :=
  match r.outcome with
  | .ok a => ⟨r.events ++ (f a).events, (f a).outcome⟩
  | .error fault => ⟨r.events, .error fault⟩

instance : Monad Report where
  pure := done
  bind := andThen

instance : MonadLift (Except Fault) Report := ⟨ofExcept⟩

/-- The diagnostics among the events. -/
def diagnosticsOf (events : List Event) : List Diagnostic :=
  events.filterMap fun
    | .diagnostic d => some d
    | .log _ => none

/-- The log records among the events. -/
def logOf (events : List Event) : List LogRecord :=
  events.filterMap fun
    | .diagnostic _ => none
    | .log record => some record

/-- The diagnostics of a report. -/
def diagnostics (r : Report α) : List Diagnostic := diagnosticsOf r.events

/-- The log records of a report. -/
def records (r : Report α) : List LogRecord := logOf r.events

end Report

end ChartStyle
