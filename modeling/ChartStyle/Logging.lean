import ChartStyle.Console
import ChartStyle.Report
import ChartStyle.Text.Upper
import ChartStyle.Text.Number

/-!
# Logging

Two streams of records are kept apart: those of the program, and the diagnostics of a compile,
which have a logger and a format of their own. Both go to the stream for errors, and on demand to
files as well. Lines carry no time.
-/

set_option autoImplicit false

namespace ChartStyle

/-! ## Loggers and formats -/

/-- The logger that the loggers of the program belong to. -/
def programLogger : String := "enc_styles"

/-- The logger of diagnostics. -/
def diagnosticsLogger : String := "enc_styles.symbology.diagnostics"

namespace Event

/-- The severity of an event; a diagnostic is a warning. -/
def level : Event → Level
  | .diagnostic _ => .warning
  | .log record => record.level

/-- The logger of an event. -/
def logger : Event → String
  | .diagnostic _ => diagnosticsLogger
  | .log record => record.logger

/-- The wording of an event. -/
def message : Event → String
  | .diagnostic d => d.message
  | .log record => record.message

end Event

/-- A text filled up with blanks to a width, on the right or on the left. -/
def padTo (width : Nat) (onRight : Bool) (s : String) : String :=
  let blanks := String.ofList (List.replicate (width - s.length) ' ')
  if onRight then s ++ blanks else blanks ++ s

/-- A piece of the format of log lines. -/
inductive LogPiece where
  | literal (c : Char)
  /-- The field of that name in at least so many columns. -/
  | field (name : String) (width : Nat) (padRight : Bool)

/-- The format of log lines. -/
abbrev LogFormat := List LogPiece

namespace LogFormat

/-- The field after a percent sign, and what follows it. -/
def field? (cs : List Char) : Option (LogPiece × List Char) :=
  match cs with
  | '(' :: rest =>
    let name := rest.takeWhile fun c => c.isAlphanum || c == '_'
    match rest.drop name.length with
    | ')' :: rest =>
      let padRight := rest.head? == some '-'
      let rest := if padRight then rest.drop 1 else rest
      let digits := rest.takeWhile Char.isDigit
      let width := Text.digitsValue (digits.map fun d => d.toNat - '0'.toNat)
      match rest.drop digits.length with
      | 's' :: rest => some (.field (String.ofList name) width padRight, rest)
      | _ => none
    | _ => none
  | _ => none

/-- Reads a format from left to right. -/
def parse : Nat → List Char → LogFormat
  | 0, _ => []
  | _, [] => []
  | fuel + 1, c :: cs =>
    if c = '%' then
      match field? cs with
      | some (piece, rest) => piece :: parse fuel rest
      | none =>
        match cs with
        | '%' :: rest => .literal '%' :: parse fuel rest
        | _ => .literal c :: parse fuel cs
    else .literal c :: parse fuel cs

/-- The format that a text describes, in which fields such as `%(message)s` stand for parts of
the record. -/
def ofText (s : String) : LogFormat := parse (s.length + 1) s.toList

/-- The logger, the severity and the message. -/
def full : LogFormat := ofText "%(name)s - %(levelname)s - %(message)s"

/-- The severity and the message. -/
def brief : LogFormat := ofText "%(levelname)s: %(message)s"

/-- The format of diagnostics. -/
def ofDiagnostics : LogFormat :=
  ofText "%(levelname)s [%(diagnostic_kind)s] %(object_class)s: %(message)s"

/-- A field of an event. Records that are no diagnostics have neither kind nor class. -/
def fieldText (e : Event) (name : String) : String :=
  if name = "name" then e.logger
  else if name = "levelname" then e.level.name
  else if name = "levelno" then toString e.level.rank
  else if name = "message" then e.message
  else if name = "diagnostic_kind" then
    match e with
    | .diagnostic d => d.kind.name
    | .log _ => "-"
  else if name = "object_class" then
    match e with
    | .diagnostic { objectClass := some objectClass, .. } =>
      if objectClass = "" then "-" else objectClass
    | _ => "-"
  else ""

/-- A piece of the line of an event. -/
def pieceText (e : Event) : LogPiece → String
  | .literal c => String.ofList [c]
  | .field name width padRight => padTo width padRight (fieldText e name)

/-- The line of an event. -/
def line (format : LogFormat) (e : Event) : String := String.join (format.map (pieceText e))

end LogFormat

/-! ## Handlers -/

/-- Where the lines of a handler go. -/
inductive LogTarget where
  | console
  | file (p : Path)

/-- A destination of events from a severity on. -/
structure LogHandler where
  level : Level
  format : LogFormat
  target : LogTarget

/-- Writes the line of an event, when it is severe enough. A file that cannot be written any more
is passed over. -/
def LogHandler.emit (h : LogHandler) (e : Event) (c : Console) : Console :=
  if e.level.rank < h.level.rank then c
  else
    match h.target with
    | .console => c.complain (h.format.line e)
    | .file p =>
      match c.files.append p (h.format.line e ++ "\n") with
      | .ok files => { c with files }
      | .error _ => c

/-- A logger with its least severity and its handlers. -/
structure LogChannel where
  level : Level
  handlers : List LogHandler

/-- Hands an event to the handlers of a channel, when it is severe enough. -/
def LogChannel.emit (channel : LogChannel) (e : Event) (c : Console) : Console :=
  if e.level.rank < channel.level.rank then c
  else channel.handlers.foldl (fun c h => h.emit e c) c

/-- The channels of the program and of the diagnostics. -/
structure Logging where
  program : LogChannel
  diagnostics : LogChannel

namespace Logging

/-- A logger belongs to another one. -/
def belongs (logger owner : String) : Bool :=
  logger == owner || (owner ++ ".").toList.isPrefixOf logger.toList

/-- Hands an event to the channel of its logger. Warnings of foreign loggers are shown as they
are. -/
def emit (l : Logging) (e : Event) (c : Console) : Console :=
  if belongs e.logger diagnosticsLogger then l.diagnostics.emit e c
  else if belongs e.logger programLogger then l.program.emit e c
  else if e.level.rank < Level.warning.rank then c
  else c.complain e.message

/-- Hands several events on, one after the other. -/
def emitAll (l : Logging) (events : List Event) (c : Console) : Console :=
  events.foldl (fun c e => l.emit e c) c

end Logging

/-! ## Setting up -/

/-- What logging is set up with. -/
structure LogOptions where
  /-- Zero shows information, more shows everything, less hides more. -/
  verbosity : Int := 0
  logFile : Option String := none
  format : Option String := none
  diagnosticsFile : Option String := none
  /-- The level that the environment asks for. -/
  environment : String := ""
  /-- The setup reports what it does. -/
  announce : Bool := true

namespace LogOptions

/-- The level of a verbosity. -/
def verbosityLevel (verbosity : Int) : Level :=
  if 1 ≤ verbosity then .debug
  else if verbosity = 0 then .info
  else if verbosity = -1 then .warning
  else .error

/-- The level of the program's records; the environment goes before the verbosity. -/
def level (o : LogOptions) : Level :=
  (Level.ofName? (Text.upper o.environment)).getD (verbosityLevel o.verbosity)

/-- The format of the program's records. -/
def programFormat (o : LogOptions) : LogFormat :=
  match o.format with
  | some "" => LogFormat.ofText "%(message)s"
  | some format => LogFormat.ofText format
  | none => if 0 ≤ o.verbosity then .full else .brief

/-- A file name that says something. -/
def given : Option String → Option String
  | some "" => none
  | name => name

end LogOptions

/-- A setup under way. -/
structure LogSetup where
  logging : Logging
  console : Console

namespace LogSetup

/-- Emits a record of the setup. -/
def log (s : LogSetup) (level : Level) (logger message : String) : LogSetup :=
  { s with console := s.logging.emit (.log ⟨level, logger, message⟩) s.console }

/-- Opens a log file: it is made if need be; a file that cannot be opened is reported to the
logger that wants it. -/
def openFile (s : LogSetup) (name logger : String) : LogSetup × Option Path :=
  let p := Path.ofText name
  match s.console.files.append p "" with
  | .ok files => ({ s with console := { s.console with files } }, some p)
  | .error fault =>
    (s.log .warning logger s!"Failed to create log file {name}: {fault.message}", none)

/-- Adds a file to the program's channel. -/
def addProgramFile (s : LogSetup) (name : String) (format : LogFormat) : LogSetup :=
  match s.openFile name programLogger with
  | (s, some p) =>
    let handlers := s.logging.program.handlers ++ [⟨.debug, format, .file p⟩]
    { s with logging := { s.logging with program := { s.logging.program with handlers } } }
  | (s, none) => s

/-- Adds a file to the channel of the diagnostics. -/
def addDiagnosticsFile (s : LogSetup) (name : String) (format : LogFormat) : LogSetup :=
  match s.openFile name diagnosticsLogger with
  | (s, some p) =>
    let handlers := s.logging.diagnostics.handlers ++ [⟨.debug, format, .file p⟩]
    { s with
      logging := { s.logging with diagnostics := { s.logging.diagnostics with handlers } } }
  | (s, none) => s

/-- Reports a step of the setup, where that is asked for. -/
def announce (s : LogSetup) (o : LogOptions) (level : Level) (message : String) : LogSetup :=
  if o.announce then s.log level programLogger message else s

/-- Logging to the console alone. -/
def start (o : LogOptions) (console : Console) : LogSetup :=
  let level := o.level
  let least :=
    if (LogOptions.given o.diagnosticsFile).isSome ∧ Level.warning.rank < level.rank then
      Level.warning
    else level
  { console
    logging := {
      program := { level, handlers := [⟨level, o.programFormat, .console⟩] }
      diagnostics := { level := least, handlers := [⟨level, .ofDiagnostics, .console⟩] } } }

/-- Sets logging up. A log file gets the records of both channels, a file for diagnostics only
theirs. -/
def run (o : LogOptions) (console : Console) : LogSetup :=
  let s := start o console
  let s :=
    match LogOptions.given o.logFile with
    | some name =>
      ((s.addProgramFile name .full).addDiagnosticsFile name .full).announce o .info
        s!"Logging to file: {name}"
    | none => s
  let s :=
    match LogOptions.given o.diagnosticsFile with
    | some name =>
      (s.addDiagnosticsFile name .ofDiagnostics).announce o .info
        s!"Writing diagnostics to: {name}"
    | none => s
  s.announce o .debug s!"Logging configured: level={o.level.name}"

end LogSetup

end ChartStyle
