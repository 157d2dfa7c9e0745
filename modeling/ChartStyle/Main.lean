import ChartStyle.CommandLine.Run

/-!
# The program

Reads the files that the arguments name, runs the command on them, and writes what it has changed.
Everything else is in the library.
-/

set_option autoImplicit false

namespace ChartStyle.CommandLine

/-- The names of files that an argument may hold: the whole of it, and what follows an equals
sign. -/
def namesIn (arg : String) : List String :=
  match Text.cutAt '=' arg.toList with
  | (_, some value) => [arg, String.ofList value]
  | (_, none) => [arg]

/-- What a path names at present. -/
def look (p : Path) : IO (Option FileNode) := do
  try
    return some (.file (← IO.FS.readFile p.text))
  catch
    | .inappropriateType _ _ _ => return some .directory
    | _ => return none

/-- Adds what some paths name to a tree. -/
def addPaths (t : FileTree) (paths : List Path) : IO FileTree :=
  paths.foldlM (fun t p => do
    match ← look p with
    | some node => return t.set p node
    | none => return t) t

/-- The files and directories that the arguments name, with the directories on the way. -/
def filesOf (args : List String) : IO FileTree :=
  (args.flatMap namesIn).foldlM (fun t name =>
    let p := Path.ofText name
    addPaths t (p.ancestors ++ [p])) .empty

/-- Writes the nodes of a tree that another tree does not have. -/
def writeChanges (before after : FileTree) : IO Unit :=
  (after.nodes.filter fun node => !before.nodes.contains node).forM fun (p, node) =>
    match node with
    | .directory => IO.FS.createDirAll p.text
    | .file text => IO.FS.writeFile p.text text

/-- A time in seconds with two decimal places. -/
def seconds (milliseconds : Nat) : String :=
  (Double.ofRatio false milliseconds 1000).toFixed 2

/-- Runs an invocation twice, so that the second run can tell the time that the first has taken. -/
def timedRun (invocation : Invocation) (files : FileTree) : IO (Except Fault Nat × Console) := do
  let start ← IO.monoMsNow
  let _ ← IO.lazyPure fun _ => (invocation.run "" files).2.stdout.length
  let stop ← IO.monoMsNow
  return invocation.run (seconds (stop - start)) files

/-- Runs an invocation on the files that the arguments name. -/
def runOn (args : List String) (invocation : Invocation) : IO UInt32 := do
  let before ← filesOf args
  let (outcome, console) ← timedRun invocation before
  writeChanges before console.files
  IO.print console.stdout
  IO.eprint console.stderr
  match outcome with
  | .ok code => return code.toUInt32
  | .error fault => do
    IO.eprintln fault.message
    return 1

/-- Runs the command that the arguments give, or prints the help. -/
def start (args : List String) : IO UInt32 := do
  match Invocation.ofArguments args with
  | .ok invocation => runOn args invocation
  | .error .help => do
    IO.print helpText
    return 0
  | .error .noCommand => do
    IO.print helpText
    return 1
  | .error .usage => do
    IO.eprint helpText
    return 2

end ChartStyle.CommandLine

/-- The entry point of the program. -/
def main (args : List String) : IO UInt32 := ChartStyle.CommandLine.start args
