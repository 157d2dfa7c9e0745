import ChartStyle.Fault
import ChartStyle.Value.Basic

/-!
# YAML as a parameter

Rule tables, palettes, catalogs and settings may be YAML files. How YAML is read and written is not
for them to say: what they need of it is a `Yaml.Format`, which a program provides.
-/

set_option autoImplicit false

namespace ChartStyle

/-- A reader and a writer of YAML texts.

What is read may be any value; a value of a further kind, such as a date, is given as one that the
library does the same with, such as its text. A text that is no YAML is refused as malformed. One
with a scalar that has the form of a value and stands for none, such as a day that is in no calendar,
may be refused with another fault. -/
class Yaml.Format where
  read : String → Except Fault Value
  write : Entries → String
  /-- Reading does not fail with an error of the library's own. -/
  isOwn_of_read {text : String} {fault : Fault} : read text = .error fault → fault.isOwn = false

end ChartStyle
