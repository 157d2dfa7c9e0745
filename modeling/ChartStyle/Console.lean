import ChartStyle.Files.Tree

/-!
# The console

What a program can see and change: the two streams that it prints to, and the file tree of its
directory.
-/

set_option autoImplicit false

namespace ChartStyle

/-- What has been printed, and the files as they are. -/
structure Console where
  stdout : String := ""
  stderr : String := ""
  files : FileTree := .empty

namespace Console

/-- Prints a line. -/
def print (c : Console) (line : String) : Console := { c with stdout := c.stdout ++ line ++ "\n" }

/-- Prints a line to the stream for errors. -/
def complain (c : Console) (line : String) : Console :=
  { c with stderr := c.stderr ++ line ++ "\n" }

end Console

end ChartStyle
