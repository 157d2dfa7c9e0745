import ChartStyle.CommandLine.Options
import ChartStyle.CommandLine.Values
import ChartStyle.Style

/-!
# Invocations

The program has three commands: `style` compiles one style, `modes` one for each display mode,
and `lookup` shows the rule that is selected for some attributes. Options for logging and silence
stand before or after the command. `Invocation.ofArguments` gives what a command line asks for, or
why nothing is run.
-/

set_option autoImplicit false

namespace ChartStyle.CommandLine

/-! ## What can be asked for -/

/-- How much is logged, and where. -/
structure Verbosity where
  verbose : Bool := false
  quiet : Bool := false
  /-- Nothing but the paths of results is printed. -/
  silent : Bool := false
  logFile : Option String := none
  diagnosticsFile : Option String := none

/-- The files that take the place of bundled tables and default settings. -/
structure TableFiles where
  rules : Option String := none
  symbols : Option String := none
  colours : Option String := none
  settings : Option String := none

/-- Where the description of the vector source comes from. -/
inductive SourceOption where
  /-- The address of its description. -/
  | url (address : String)
  /-- The address of a tile archive. -/
  | tiles (address : String)
  /-- A file with the description. -/
  | file (name : String)

/-- What a style is to be compiled from. -/
structure StyleOptions where
  source : SourceOption
  sourceId : Option String := none
  name : String := StyleDocument.defaultName
  sprite : Option String := none
  features : Option String := none
  tables : TableFiles := {}

/-- What is to be done. -/
inductive Command where
  /-- Compile a style, and write it to a file on demand. -/
  | style (options : StyleOptions) (mode : Option DisplayMode) (output : Option String)
  /-- Compile a style for each of some modes. -/
  | modes (options : StyleOptions) (modes : List DisplayMode) (outputDirectory : String)
      (parallel : Bool) (workers : Option Int)
  /-- Show the rule for some attributes. -/
  | lookup (tables : TableFiles) (objectClass : String) (tableSet : TableSet)
      (attributes : List (String × String))

/-- A command and how it is logged. -/
structure Invocation where
  verbosity : Verbosity
  command : Command

/-- Why nothing is run. -/
inductive Refusal where
  /-- The help is asked for. -/
  | help
  /-- There is no command. -/
  | noCommand
  /-- The command line is wrong. -/
  | usage
  deriving DecidableEq

/-! ## The options -/

/-- The options of the program and its commands. -/
inductive Key where
  | help
  | verbose
  | quiet
  | silent
  | logFile
  | diagnosticsFile
  | sourceUrl
  | tiles
  | sourceJson
  | sourceId
  | name
  | sprite
  | features
  | rules
  | symbols
  | colours
  | settings
  | mode
  | output
  | modes
  | outputDirectory
  | parallel
  | workers
  | objectClass
  | tableSet
  | attribute
  deriving DecidableEq

/-- The options that are known everywhere. -/
def commonOptions : List (OptionSpec Key) := [
  ⟨.help, ["-h", "--help"], .nothing⟩, ⟨.verbose, ["-v", "--verbose"], .nothing⟩,
  ⟨.quiet, ["-q", "--quiet"], .nothing⟩, ⟨.silent, ["--silent"], .nothing⟩,
  ⟨.logFile, ["--log-file"], .one⟩, ⟨.diagnosticsFile, ["--diagnostics-file"], .one⟩]

/-- The options for files that take the place of bundled tables. -/
def tableOptions : List (OptionSpec Key) := [
  ⟨.rules, ["--rules"], .one⟩, ⟨.symbols, ["--symbols"], .one⟩, ⟨.colours, ["--colors"], .one⟩,
  ⟨.settings, ["--config"], .one⟩]

/-- The options of what a style is compiled from. -/
def sourceOptions : List (OptionSpec Key) := [
  ⟨.sourceUrl, ["--source-url"], .one⟩, ⟨.tiles, ["--tiles"], .one⟩,
  ⟨.sourceJson, ["--source-json"], .one⟩, ⟨.sourceId, ["--source-id"], .one⟩,
  ⟨.name, ["--name"], .one⟩, ⟨.sprite, ["--sprite"], .one⟩, ⟨.features, ["--features"], .one⟩]

/-- The options of `style`. -/
def styleOptions : List (OptionSpec Key) :=
  commonOptions ++ sourceOptions ++ tableOptions
    ++ [⟨.mode, ["--mode"], .one⟩, ⟨.output, ["--output"], .one⟩]

/-- The options of `modes`. -/
def modesOptions : List (OptionSpec Key) :=
  commonOptions ++ sourceOptions ++ tableOptions
    ++ [⟨.modes, ["--modes"], .many⟩, ⟨.outputDirectory, ["--output-dir"], .one⟩,
      ⟨.parallel, ["--parallel"], .nothing⟩, ⟨.workers, ["--workers"], .one⟩]

/-- The options of `lookup`. -/
def lookupOptions : List (OptionSpec Key) :=
  commonOptions ++ tableOptions
    ++ [⟨.objectClass, ["--object-class"], .one⟩, ⟨.tableSet, ["--table-set"], .one⟩,
      ⟨.attribute, ["--attribute"], .one⟩]

/-! ## Reading the options -/

/-- What the options have given so far. -/
structure Given where
  verbosity : Verbosity := {}
  tables : TableFiles := {}
  source : Option SourceOption := none
  sourceId : Option String := none
  name : String := StyleDocument.defaultName
  sprite : Option String := none
  features : Option String := none
  mode : Option DisplayMode := none
  output : Option String := none
  modes : List DisplayMode := DisplayMode.all
  outputDirectory : Option String := none
  parallel : Bool := false
  workers : Option Int := none
  objectClass : Option String := none
  tableSet : TableSet := .points
  attributes : List (String × String) := []

namespace Given

/-- A value that must be read; a text that cannot be is a mistake. -/
def reading {α : Type} (outcome : Except ValueProblem α) : Except Refusal α :=
  outcome.mapError fun _ => .usage

/-- Both sources are of one kind. -/
def sameKind : SourceOption → SourceOption → Bool
  | .url _, .url _ => true
  | .tiles _, .tiles _ => true
  | .file _, .file _ => true
  | _, _ => false

/-- Sets the source; sources of different kinds exclude each other. -/
def withSource (g : Given) (source : SourceOption) : Except Refusal Given :=
  match g.source with
  | none => .ok { g with source := some source }
  | some other =>
    if sameKind other source then .ok { g with source := some source } else .error .usage

/-- What is given with one option more, by its first word. -/
def set (g : Given) (key : Key) (word : String) : Except Refusal Given :=
  match key with
  | .help => .error .help
  | .verbose => .ok { g with verbosity := { g.verbosity with verbose := true } }
  | .quiet => .ok { g with verbosity := { g.verbosity with quiet := true } }
  | .silent => .ok { g with verbosity := { g.verbosity with silent := true } }
  | .logFile => .ok { g with verbosity := { g.verbosity with logFile := some word } }
  | .diagnosticsFile =>
    .ok { g with verbosity := { g.verbosity with diagnosticsFile := some word } }
  | .sourceUrl => g.withSource (.url word)
  | .tiles => g.withSource (.tiles word)
  | .sourceJson => g.withSource (.file word)
  | .sourceId => .ok { g with sourceId := some word }
  | .name => .ok { g with name := word }
  | .sprite => .ok { g with sprite := some word }
  | .features => .ok { g with features := some word }
  | .rules => .ok { g with tables := { g.tables with rules := some word } }
  | .symbols => .ok { g with tables := { g.tables with symbols := some word } }
  | .colours => .ok { g with tables := { g.tables with colours := some word } }
  | .settings => .ok { g with tables := { g.tables with settings := some word } }
  | .mode => do return { g with mode := some (← reading (readMode word)) }
  | .output => .ok { g with output := some word }
  | .modes => .ok g
  | .outputDirectory => .ok { g with outputDirectory := some word }
  | .parallel => .ok { g with parallel := true }
  | .workers => do return { g with workers := some (← reading (readCount word)) }
  | .objectClass => .ok { g with objectClass := some word }
  | .tableSet => do return { g with tableSet := ← reading (readTableSet word) }
  | .attribute => do
    return { g with attributes := g.attributes ++ [← reading (readAssignment word)] }

/-- What is given with one option more. -/
def add (g : Given) (o : Occurrence Key) : Except Refusal Given :=
  match o.key with
  | .modes => do return { g with modes := ← o.words.mapM fun word => reading (readMode word) }
  | key => g.set key (o.words.headD "")

/-- What a reading gives in addition; a mistake counts after the options before it. -/
def addAll (g : Given) (r : Options.Reading Key) : Except Refusal Given := do
  let g ← r.occurrences.foldlM add g
  if r.complete then return g else .error .usage

/-- What a command is to compile from; the source must be given. -/
def styleOptions? (g : Given) : Option StyleOptions :=
  g.source.map fun source =>
    { source, sourceId := g.sourceId, name := g.name, sprite := g.sprite
      features := g.features, tables := g.tables }

end Given

/-! ## Commands -/

/-- The command of that name with its options. -/
def command? (name : String) : Option (List (OptionSpec Key) × (Given → Option Command)) :=
  if name = "style" then
    some (styleOptions, fun g => g.styleOptions?.map fun o => .style o g.mode g.output)
  else if name = "modes" then
    some (modesOptions, fun g => do
      return .modes (← g.styleOptions?) g.modes (← g.outputDirectory) g.parallel g.workers)
  else if name = "lookup" then
    some (lookupOptions, fun g =>
      g.objectClass.map fun objectClass => .lookup g.tables objectClass g.tableSet g.attributes)
  else none

/-- What a command line asks for. The options before the command come first, then the command
with its own; required options and arguments that belong nowhere are looked at last. -/
def Invocation.ofArguments (args : List String) : Except Refusal Invocation := do
  let before := Options.read commonOptions true args
  let g ← ({} : Given).addAll before
  match before.command with
  | [] => .error (if before.leftOver.isEmpty then .noCommand else .usage)
  | name :: args =>
    match command? name with
    | none => .error .usage
    | some (specs, finish) =>
      let after := Options.read specs false args
      let g ← g.addAll after
      match finish g with
      | some command =>
        if (before.leftOver ++ after.leftOver).isEmpty then
          return { verbosity := g.verbosity, command }
        else .error .usage
      | none => .error .usage

/-- The help of the program. -/
def helpText : String :=
  "Compiles S-52 chart symbology into styles for vector tiles of electronic charts.\n\n"
    ++ "  style   compile a style (--source-url, --tiles or --source-json; --mode, --output)\n"
    ++ "  modes   compile one style per display mode (--modes, --output-dir, --parallel)\n"
    ++ "  lookup  show the rule for attributes (--object-class, --table-set, --attribute)\n"

end ChartStyle.CommandLine
