import ChartStyle.Style

/-!
# One style for each display mode

A chart viewer switches between the modes at run time and needs a style for each of them. A batch
compiles one catalog in several modes. A mode that fails is reported and does not stop the others,
unless the fault is none of the library's own.

Modes that are compiled side by side finish in any order. A `Pool` takes one `Turn` after the
other: a compile finishes, or a finished one is recorded. The `Ledger` of what was recorded is put
in the order in which the modes were wanted at the end.
-/

set_option autoImplicit false

namespace ChartStyle

/-- A batch of styles. -/
structure BatchRequest where
  request : StyleRequest
  /-- Where the styles are written; without it they are only returned. -/
  outputDirectory : Option Path := none
  /-- The modes that are wanted; null wants all. -/
  modes : Value := .null
  /-- The modes are compiled side by side. -/
  parallel : Bool := false
  /-- How many modes are compiled at a time when they are compiled side by side. -/
  workers : Option Int := none

/-- The files with the output directory made, where there is one. -/
def BatchRequest.prepare (b : BatchRequest) (t : FileTree) : Except Fault FileTree :=
  match b.outputDirectory with
  | some directory => t.makeDirectory directory
  | none => .ok t

/-- The modes are not shared among no workers. -/
def BatchRequest.checkWorkers (b : BatchRequest) : Except Fault Unit :=
  match b.workers with
  | some workers => if workers ≤ 0 then .error (.data .noWorkers) else .ok ()
  | none => .ok ()

/-- What a mode gives: a document, or the file that it was written to. -/
inductive StyleOutput where
  | document (d : StyleDocument)
  | file (p : Path)
  deriving Inhabited

/-- An output as a value. -/
def StyleOutput.toValue : StyleOutput → Value
  | .document d => d.toValue
  | .file p => .text p.text

/-- An output with the number of diagnostics. -/
structure ModeStyle where
  output : StyleOutput
  diagnostics : Nat

/-- The outcome of a batch, mode by mode in the order in which they were wanted. -/
structure BatchResult where
  /-- The outputs of the modes that succeeded. -/
  styles : List (DisplayMode × StyleOutput)
  failed : List DisplayMode
  /-- The numbers of diagnostics of the modes that succeeded. -/
  diagnostics : List (DisplayMode × Nat)

namespace Batch

/-- The logger of batches. -/
def logger : String := "enc_styles.batch"

/-- The modes that a value wants. -/
def modesOf (v : Value) : Except Fault (List DisplayMode) := do
  match v with
  | .null => return DisplayMode.all
  | v =>
    match ← (← v.items).mapM DisplayMode.parse with
    | [] => .error (.parameter .noModes)
    | modes => return modes

/-! ## One mode -/

/-- The style of one mode, before it is written. -/
def compiled (p : Presentation) (b : BatchRequest) (mode : DisplayMode) : Report StyleDocument :=
  p.compileStyle b.request (some (.text mode.name))

/-- The file for the style of a mode. -/
def stylePath (directory : Path) (mode : DisplayMode) : Path :=
  directory.child s!"style-{mode.lowerName}.json"

/-- Compiles the style of one mode, and writes it where there is an output directory. -/
def compileMode (p : Presentation) (b : BatchRequest) (mode : DisplayMode) : Action ModeStyle := do
  let document ← compiled p b mode
  let diagnostics := (compiled p b mode).diagnostics.length
  match b.outputDirectory with
  | none => return { output := .document document, diagnostics }
  | some directory =>
    document.save (stylePath directory mode)
    return { output := .file (stylePath directory mode), diagnostics }

/-- The outcome of one mode. -/
abbrev Outcome := DisplayMode × Except Fault ModeStyle

/-! ## The ledger -/

/-- What has been recorded. -/
structure Ledger where
  /-- The outputs, the latest first. -/
  outputs : List (DisplayMode × StyleOutput) := []
  /-- The numbers of diagnostics, the latest first. -/
  counts : List (DisplayMode × Nat) := []
  /-- The modes that failed, in the order in which they were recorded. -/
  failed : List DisplayMode := []

namespace Ledger

/-- Records an outcome; one of the library's own faults is reported, another one fails. -/
def add (l : Ledger) : Outcome → Report Ledger
  | (mode, .ok style) =>
    return { l with
      outputs := (mode, style.output) :: l.outputs
      counts := (mode, style.diagnostics) :: l.counts }
  | (mode, .error fault) =>
    if fault.isOwn then do
      Report.log .error logger s!"Style {mode.name} failed with error: {fault.message}"
      return { l with failed := l.failed ++ [mode] }
    else .fail fault

/-- The latest entry of each of some modes that has one, where the mode is wanted first. -/
def latest {α : Type} (modes : List DisplayMode) (entries : List (DisplayMode × α)) :
    List (DisplayMode × α) :=
  (LookupTable.distinct modes).filterMap fun mode =>
    (entries.lookup mode).map fun entry => (mode, entry)

/-- The result in the order in which modes were wanted. -/
def result (l : Ledger) (modes : List DisplayMode) : BatchResult :=
  { styles := latest modes l.outputs
    failed := modes.filter fun mode => l.failed.contains mode
    diagnostics := latest modes l.counts }

/-- Names the modes that failed in the log, when some did. -/
def warnOfFailures (l : Ledger) : Report Unit :=
  if l.failed.isEmpty then pure ()
  else
    .log .warning logger
      s!"Failed modes: {(Value.ofTexts (l.failed.map DisplayMode.name)).shown}"

end Ledger

/-! ## One mode after the other -/

/-- Compiles modes one after the other and records each before the next. -/
def runInTurn (p : Presentation) (b : BatchRequest) : Ledger → List DisplayMode → Action Ledger
  | ledger, [] => pure ledger
  | ledger, mode :: modes => do
    let ledger ← ledger.add (mode, ← (compileMode p b mode).attempt)
    runInTurn p b ledger modes

/-! ## Side by side -/

/-- Modes that are compiled side by side. -/
structure Pool where
  /-- The modes whose compiles have not finished. -/
  running : List DisplayMode
  /-- The outcomes of those that have, until they are recorded. -/
  finished : List Outcome := []
  ledger : Ledger := {}
  /-- The first fault that is none of the library's own; nothing is recorded after it. -/
  fault : Option Fault := none

/-- What happens next in a pool; a position that there is none of changes nothing. -/
inductive Turn where
  /-- The compile at a position finishes. -/
  | finish (position : Nat)
  /-- The outcome at a position is recorded. -/
  | collect (position : Nat)
  deriving DecidableEq

namespace Pool

/-- Records an outcome unless there was a fault before. -/
def record (pool : Pool) (outcome : Outcome) : Action Pool :=
  match pool.fault with
  | some _ => return pool
  | none => do
    match ← Action.attempt (pool.ledger.add outcome) with
    | .ok ledger => return { pool with ledger }
    | .error fault => return { pool with fault := some fault }

/-- Takes a turn. -/
def take (p : Presentation) (b : BatchRequest) (pool : Pool) : Turn → Action Pool
  | .finish position =>
    match pool.running[position]? with
    | some mode => do
      let outcome ← (compileMode p b mode).attempt
      return { pool with
        running := pool.running.eraseIdx position
        finished := pool.finished ++ [(mode, outcome)] }
    | none => return pool
  | .collect position =>
    match pool.finished[position]? with
    | some outcome => { pool with finished := pool.finished.eraseIdx position }.record outcome
    | none => return pool

/-- Takes turns one after the other. -/
def play (p : Presentation) (b : BatchRequest) (pool : Pool) : List Turn → Action Pool
  | [] => pure pool
  | turn :: turns => do (← pool.take p b turn).play p b turns

/-- Lets what still runs finish in order, and records what has finished in order. -/
def settle (p : Presentation) (b : BatchRequest) (pool : Pool) : Action Pool := do
  let pool ← pool.play p b (List.replicate pool.running.length (.finish 0))
  pool.play p b (List.replicate pool.finished.length (.collect 0))

/-- What was recorded, or the fault that put an end to it. -/
def outcome (pool : Pool) : Except Fault Ledger :=
  match pool.fault with
  | some fault => .error fault
  | none => .ok pool.ledger

end Pool

/-- Compiles modes side by side. The schedule says what happens first; what is left after it goes
on in order. -/
def runTogether (p : Presentation) (b : BatchRequest) (schedule : List Turn)
    (modes : List DisplayMode) : Action Ledger := do
  b.checkWorkers
  let pool ← Pool.play p b { running := modes } schedule
  let pool ← pool.settle p b
  pool.outcome

/-! ## The batch -/

/-- Compiles the modes of a batch in the way that is asked for. -/
def compileModes (p : Presentation) (b : BatchRequest) (schedule : List Turn)
    (modes : List DisplayMode) : Action Ledger :=
  if b.parallel then runTogether p b schedule modes else runInTurn p b {} modes

/-- Compiles a batch; modes that are compiled side by side keep to a schedule. -/
def runOn (p : Presentation) (b : BatchRequest) (schedule : List Turn) : Action BatchResult := do
  let modes ← modesOf b.modes
  Action.change b.prepare
  let ledger ← compileModes p b schedule modes
  ledger.warnOfFailures
  return ledger.result modes

/-- Compiles a batch. -/
def run (p : Presentation) (b : BatchRequest) : Action BatchResult := runOn p b []

end Batch

/-- The outcome of a batch as a value. -/
def BatchResult.toValue (r : BatchResult) : Value :=
  .ofFields [
    ("successful_styles", .ofFields (r.styles.map fun (mode, output) =>
      (mode.name, output.toValue))),
    ("failed_modes", .ofTexts (r.failed.map DisplayMode.name)),
    ("diagnostics", .ofFields (r.diagnostics.map fun (mode, count) =>
      (mode.name, .int count)))]

end ChartStyle
