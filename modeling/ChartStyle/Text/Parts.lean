/-!
# Parts of a text

`Text.splitOn` gives the parts of a text between the occurrences of a separator; there is always
one part more than there are separators. `Text.cutAt` cuts at the first separator only.
-/

set_option autoImplicit false

namespace ChartStyle.Text

/-- The parts of a list of characters between the separators. -/
def parts (separator : Char) : List Char → List (List Char)
  | [] => [[]]
  | c :: cs =>
    if c = separator then [] :: parts separator cs
    else (parts separator cs).modifyHead (c :: ·)

/-- The parts of a text between the separators. -/
def splitOn (separator : Char) (s : String) : List String :=
  (parts separator s.toList).map String.ofList

/-- What stands before the first separator, and what follows it when there is one. -/
def cutAt (separator : Char) : List Char → List Char × Option (List Char)
  | [] => ([], none)
  | c :: cs =>
    if c = separator then ([], some cs)
    else
      let (before, after) := cutAt separator cs
      (c :: before, after)

end ChartStyle.Text
