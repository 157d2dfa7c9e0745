import ChartStyle.Text.Parts

/-!
# Paths

A `Path` is a place among files by the names on the way to it. Repeated and trailing slashes and
single dots do not matter; a path without names is the current directory.
-/

set_option autoImplicit false

namespace ChartStyle

/-- The names on the way to a file or directory. -/
structure Path where
  /-- The way starts at the root, not at the current directory. -/
  absolute : Bool
  names : List String
  deriving DecidableEq, Inhabited

namespace Path

/-- The path that a text gives. -/
def ofText (s : String) : Path :=
  { absolute := s.toList.head? == some '/'
    names := (Text.splitOn '/' s).filter fun name => name != "" && name != "." }

/-- The text of a path. -/
def text (p : Path) : String :=
  if p.absolute then "/" ++ "/".intercalate p.names
  else if p.names.isEmpty then "."
  else "/".intercalate p.names

/-- The directory that holds a path; that of the current directory is itself. -/
def parent (p : Path) : Path := { p with names := p.names.dropLast }

/-- A name within a directory. -/
def child (p : Path) (name : String) : Path := { p with names := p.names ++ [name] }

/-- The last name with what stands before and from the last dot, when something stands before it
and after it. -/
def suffix (p : Path) : String :=
  match p.names.getLast? with
  | none => ""
  | some name =>
    let after := (name.toList.reverse.takeWhile (· != '.')).reverse
    let before := (name.toList.reverse.drop (after.length + 1)).reverse
    if after.isEmpty || before.isEmpty then "" else "." ++ String.ofList after

/-- The directories on the way to a path, the outermost first. -/
def ancestors (p : Path) : List Path :=
  (List.range p.names.length).map fun count => { p with names := p.names.take count }

end Path

end ChartStyle
