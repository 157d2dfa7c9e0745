import ChartStyle.Fault
import ChartStyle.Files.Path

/-!
# File trees

The files that a program reads and writes are a value: a `FileTree` maps paths to texts and knows
the directories. Every operation that the tree refuses is a `FileFault` and leaves it as it was.
-/

set_option autoImplicit false

namespace ChartStyle

/-- What a path can name. -/
inductive FileNode where
  | directory
  | file (text : String)
  deriving DecidableEq

/-- Directories and files by their paths, in the order in which they came to be. -/
structure FileTree where
  nodes : List (Path × FileNode)
  deriving Inhabited

namespace FileTree

/-- A tree with nothing but the current directory. -/
def empty : FileTree := ⟨[]⟩

/-- What a path names. -/
def find? (t : FileTree) (p : Path) : Option FileNode :=
  if p.names.isEmpty then some .directory else t.nodes.lookup p

/-- The path names something. -/
def contains (t : FileTree) (p : Path) : Bool := (t.find? p).isSome

/-- The nodes with one path set; a path that is set again keeps its place. -/
def setNode : List (Path × FileNode) → Path → FileNode → List (Path × FileNode)
  | [], p, node => [(p, node)]
  | (q, n) :: rest, p, node =>
    if q = p then (q, node) :: rest else (q, n) :: setNode rest p node

/-- The tree with one path set. -/
def set (t : FileTree) (p : Path) (node : FileNode) : FileTree := ⟨setNode t.nodes p node⟩

/-- The first of some directories that is none decides why a path cannot be reached. -/
def obstacle? (t : FileTree) (name : String) : List Path → Option FileFault
  | [] => none
  | p :: rest =>
    match t.find? p with
    | some .directory => t.obstacle? name rest
    | some (.file _) => some (.notADirectory name)
    | none => some (.notFound name)

/-! ## Reading and writing -/

/-- The text of the file at a path that a message calls by `name`. -/
def readAs (t : FileTree) (name : String) (p : Path) : Except Fault String :=
  match t.obstacle? name p.ancestors with
  | some fault => .error (.file fault)
  | none =>
    match t.find? p with
    | some (.file text) => .ok text
    | some .directory => .error (.file (.isADirectory name))
    | none => .error (.file (.notFound name))

/-- The text of a file. -/
def read (t : FileTree) (p : Path) : Except Fault String := t.readAs p.text p

/-- The text of the file that a text names. -/
def readNamed (t : FileTree) (name : String) : Except Fault String :=
  if name = "" then .error (.file (.notFound name)) else t.readAs name (Path.ofText name)

/-- The tree with a file written. -/
def write (t : FileTree) (p : Path) (text : String) : Except Fault FileTree :=
  match t.obstacle? p.text p.ancestors with
  | some fault => .error (.file fault)
  | none =>
    match t.find? p with
    | some .directory => .error (.file (.isADirectory p.text))
    | _ => .ok (t.set p (.file text))

/-- The tree with some text added at the end of a file, which need not be there before. -/
def append (t : FileTree) (p : Path) (text : String) : Except Fault FileTree :=
  match t.find? p with
  | some (.file before) => t.write p (before ++ text)
  | _ => t.write p text

/-- The tree with a directory and those on the way to it, the names on the way given from the
last to the first. -/
def makeReversed (t : FileTree) (absolute : Bool) : List String → Except Fault FileTree
  | [] => .ok t
  | name :: before =>
    let p : Path := { absolute, names := before.reverse ++ [name] }
    match t.obstacle? p.text p.ancestors with
    | some (.notFound _) => (t.makeReversed absolute before).map fun t => t.set p .directory
    | some fault => .error (.file fault)
    | none =>
      match t.find? p with
      | some .directory => .ok t
      | some (.file _) => .error (.file (.alreadyExists p.text))
      | none => .ok (t.set p .directory)

/-- The tree with a directory and those on the way to it. -/
def makeDirectory (t : FileTree) (p : Path) : Except Fault FileTree :=
  t.makeReversed p.absolute p.names.reverse

/-- The tree with a file written, and the directories on the way to it. -/
def writeWithParents (t : FileTree) (p : Path) (text : String) : Except Fault FileTree := do
  (← t.makeDirectory p.parent).write p text

/-- The files with their texts. -/
def files (t : FileTree) : List (Path × String) :=
  t.nodes.filterMap fun (p, node) =>
    match node with
    | .file text => some (p, text)
    | .directory => none

/-- The tree of some files, with the directories on the way to them. -/
def ofFiles (files : List (String × String)) : FileTree :=
  files.foldl (fun t (name, text) =>
    match t.writeWithParents (Path.ofText name) text with
    | .ok t => t
    | .error _ => t) empty

end FileTree

end ChartStyle
