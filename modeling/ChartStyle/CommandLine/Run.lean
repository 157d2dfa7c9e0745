import ChartStyle.Batch
import ChartStyle.Bundled.Presentation
import ChartStyle.CommandLine.Invocation
import ChartStyle.Files.Tables
import ChartStyle.Logging
import ChartStyle.Yaml.Reader
import ChartStyle.Yaml.Writer

/-!
# Running the commands

A `Program` prints, changes files, and logs what its operations note. It ends with an exit code;
faults that no command reports end it as well. `Invocation.run` sets logging up and runs a command
on the files of a directory.
-/

set_option autoImplicit false

namespace ChartStyle.CommandLine

/-! ## Programs -/

/-- Why a program ends before its last line. -/
inductive Ending where
  | exit (code : Nat)
  | fault (fault : Fault)

/-- A computation that logs and changes the console. -/
abbrev Program := ReaderT Logging (ExceptT Ending (StateM Console))

namespace Program

variable {α : Type}

/-- Prints a line. -/
def print (line : String) : Program Unit := modify fun c => c.print line

/-- Prints a line to the stream for errors. -/
def complain (line : String) : Program Unit := modify fun c => c.complain line

/-- Ends with an exit code. -/
def exit (code : Nat) : Program α := throw (.exit code)

/-- Carries out an action on the files and logs what it notes. -/
def perform (action : Action α) : Program α := do
  let logging ← read
  let (report, files) := action.run (← get).files
  modify fun c => logging.emitAll report.events { c with files }
  match report.outcome with
  | .ok a => return a
  | .error fault => throw (.fault fault)

/-- Reads something from the files. -/
def examine (f : FileTree → Except Fault α) : Program α := perform (.examine f)

/-- Runs a program; a fault that has a line for it is reported with exit code one. -/
def reporting (line? : Fault → Option String) (program : Program α) : Program α :=
  tryCatch program fun
    | .exit code => throw (.exit code)
    | .fault fault =>
      match line? fault with
      | some line => do
        complain line
        exit 1
      | none => throw (.fault fault)

end Program

/-! ## Faults as lines -/

/-- The line for one of the library's own errors. -/
def ownLine? (fault : Fault) : Option String :=
  if fault.isOwn then some s!"Error: {fault.message}" else none

/-- The line for an own error, for one of the file system, and for a value out of range. -/
def errorLine? (fault : Fault) : Option String :=
  match ownLine? fault with
  | some line => some line
  | none =>
    if fault.isFile || fault.isBadValue then some s!"Unexpected error: {fault.message}" else none

/-- The line for a settings file that cannot be used. -/
def settingsLine? (name : String) (fault : Fault) : Option String :=
  if fault.isOwn || fault.isFile then
    some s!"Error loading config from {name}: {fault.message}"
  else none

/-! ## What the commands need -/

/-- The YAML that the program reads and writes. -/
instance yaml : Yaml.Format where
  read := Yaml.read
  write := Yaml.write
  isOwn_of_read h := by
    rw [Yaml.read_eq_error h]
    rfl

/-- The contents of the file that an option names; an empty name is as good as none. -/
def loadNamed {α : Type} (load : FileTree → Path → Except Fault α) (name : Option String) :
    Program (Option α) :=
  match LogOptions.given name with
  | some name => do return some (← Program.examine fun files => load files (Path.ofText name))
  | none => return none

/-- The settings of a file, or the defaults. -/
def loadSettings (name : Option String) : Program Settings :=
  match name with
  | none => return {}
  | some name =>
    Program.reporting (settingsLine? name)
      (Program.examine fun files => Settings.load files (Path.ofText name))

/-- The presentation with the tables that are given. -/
def loadPresentation (tables : TableFiles) : Program Presentation := do
  let table ← loadNamed LookupTable.load tables.rules
  let registry ← loadNamed Registry.load tables.symbols
  let palette ← loadNamed Palette.load tables.colours
  Program.examine fun _ => Bundled.presentation table registry palette

/-- The description of a vector source at an address. -/
def vectorSource (url : Value) : Value := .ofFields [("type", .text "vector"), ("url", url)]

/-- The description of the vector source. Without the name of a file or archive there is no
address either. -/
def loadSource (source : SourceOption) : Program Value :=
  match source with
  | .url address => return vectorSource (.text address)
  | .tiles address =>
    return vectorSource (if address = "" then .null else .text ("pmtiles://" ++ address))
  | .file name =>
    if name = "" then return vectorSource .null
    else Program.examine fun files => do Json.read (← files.readNamed name)

/-- The parts of a compile. -/
structure Job where
  request : StyleRequest
  presentation : Presentation

/-- Loads what a style is compiled from. -/
def loadJob (o : StyleOptions) : Program Job := do
  let settings ← loadSettings o.tables.settings
  let settings :=
    match LogOptions.given o.sourceId with
    | some sourceId => { settings with source := .text sourceId }
    | none => settings
  let catalog ← loadNamed Catalog.load o.features
  let source ← loadSource o.source
  let presentation ← loadPresentation o.tables
  return {
    request := { source, name := o.name, sprite := o.sprite, settings, catalog }
    presentation }

/-! ## The commands -/

/-- Compiles a style and prints it, or writes it and prints where it is. -/
def runStyle (silent : Bool) (o : StyleOptions) (mode : Option DisplayMode)
    (output : Option String) : Program Nat :=
  Program.reporting errorLine? do
    let job ← loadJob o
    let compiled := job.presentation.compileStyle job.request (mode.map fun m => .text m.name)
    let document ← Program.perform (.ofReport compiled)
    match output with
    | none => Program.print (Json.write document.toValue)
    | some output =>
      let path := Path.ofText output
      Program.perform (document.save path)
      if silent then Program.print path.text
      else do
        Program.print s!"Success! Style saved to: {path.text}"
        Program.print s!"  Layers: {document.layers.length}"
        Program.print s!"  Diagnostics: {compiled.diagnostics.length}"
        compiled.diagnostics.forM fun d => Program.print s!"    {d.line}"
    return 0

/-- Prints where the style of a mode is and how many diagnostics it has. -/
def printMode (r : BatchResult) (mode : DisplayMode) (output : StyleOutput) : Program Unit :=
  match r.diagnostics.lookup mode with
  | some count =>
    Program.print s!"  {mode.name}: {output.toValue.plain} ({count} diagnostics)"
  | none => throw (.fault (.data (.missingKey mode.name)))

/-- Prints the outcome of a batch. -/
def printBatch (silent : Bool) (elapsed : String) (r : BatchResult) : Program Unit := do
  let successful := r.styles.length
  if silent then r.styles.forM fun (_, output) => Program.print output.toValue.plain
  else do
    Program.print "\nBatch compile complete!"
    Program.print s!"  Successful: {successful}/{successful + r.failed.length}"
    Program.print s!"  Total time: {elapsed}s"
    r.styles.forM fun (mode, output) => printMode r mode output
    if !r.failed.isEmpty then
      let failed := (Value.ofTexts (r.failed.map DisplayMode.name)).shown
      Program.print s!"  Failed modes: {failed}"

/-- Compiles a style for each of some modes. -/
def runModes (silent : Bool) (elapsed : String) (o : StyleOptions) (modes : List DisplayMode)
    (outputDirectory : String) (parallel : Bool) (workers : Option Int) : Program Nat := do
  let names := modes.map DisplayMode.name
  if !silent then
    Program.print ("Compiling styles for modes: " ++ ", ".intercalate names)
  Program.reporting errorLine? do
    let job ← loadJob o
    let result ← Program.perform (Batch.run job.presentation {
      request := job.request
      outputDirectory := some (Path.ofText outputDirectory)
      modes := .ofTexts names
      parallel
      workers })
    printBatch silent elapsed result
    return if result.failed.isEmpty then 0 else 1

/-- Attributes that are assigned one after the other. -/
def assigned (attributes : List (String × String)) : List (String × Value) :=
  attributes.foldl (fun set (code, value) => setAttribute set code (.text value)) []

/-- Prints a procedure call of a rule and the calls that come of it. -/
def printProcedure (a : AttributeSet) (settings : Settings) (tableSet : TableSet) (call : Call) :
    Program Unit := do
  match ← Program.perform (.ofReport call.procedure?) with
  | some procedure =>
    let calls ← Program.perform (.ofReport (procedure.evaluate a settings tableSet))
    Program.print (s!"  {call.print} -> " ++ ";".intercalate (calls.map Call.print))
  | none => return

/-- Shows the rule for some attributes. -/
def runLookup (tables : TableFiles) (objectClass : String) (tableSet : TableSet)
    (attributes : List (String × String)) : Program Nat :=
  Program.reporting ownLine? do
    let presentation ← loadPresentation tables
    let settings ← loadSettings tables.settings
    let a : AttributeSet :=
      { objectClass := Text.upper objectClass, entries := assigned attributes }
    match presentation.table.select a tableSet with
    | none =>
      Program.print s!"No rule for {a.objectClass} in {tableSet.name} (not drawn)"
    | some rule =>
      Program.print s!"Rule:        {rule.name}"
      Program.print s!"Instruction: {rule.instruction}"
      Program.print s!"Priority:    {rule.priority}"
      Program.print s!"Category:    {rule.category.name}"
      rule.calls.forM fun call => printProcedure a settings tableSet call
    return 0

/-- Runs a command. -/
def Command.run (silent : Bool) (elapsed : String) : Command → Program Nat
  | .style options mode output => runStyle silent options mode output
  | .modes options wanted outputDirectory parallel workers =>
    runModes silent elapsed options wanted outputDirectory parallel workers
  | .lookup tables objectClass tableSet attributes =>
    runLookup tables objectClass tableSet attributes

/-! ## The whole program -/

namespace Verbosity

/-- Silence hides most, then quiet; both go before verbose. -/
def rank (v : Verbosity) : Int :=
  if v.silent then -2 else if v.quiet then -1 else if v.verbose then 1 else 0

/-- The logging that is asked for. -/
def logOptions (v : Verbosity) : LogOptions :=
  { verbosity := v.rank, logFile := v.logFile, diagnosticsFile := v.diagnosticsFile
    announce := false }

end Verbosity

/-- Runs an invocation on some files: the exit code, or the fault that ended it, with what was
printed and the files afterwards. `elapsed` is the text for the time that a batch takes. -/
def Invocation.run (i : Invocation) (elapsed : String) (files : FileTree) :
    Except Fault Nat × Console :=
  let setup := LogSetup.run i.verbosity.logOptions { files }
  let (ending, console) :=
    ((i.command.run i.verbosity.silent elapsed).run setup.logging).run.run setup.console
  match ending with
  | .ok code => (.ok code, console)
  | .error (.exit code) => (.ok code, console)
  | .error (.fault fault) => (.error fault, console)

end ChartStyle.CommandLine
