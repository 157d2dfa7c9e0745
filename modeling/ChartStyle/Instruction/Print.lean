import ChartStyle.Instruction.Basic

/-!
# Writing calls

`Call.print` writes a call as an instruction string holds it: texts that are not bare words stand
in quotes, everything else as its token.
-/

set_option autoImplicit false

namespace ChartStyle

/-- A letter, digit or underscore of ASCII. -/
def isWordChar (c : Char) : Bool := c.isAlphanum || c == '_'

/-- A word that needs no quotes; a line feed may end it. -/
def isBareWord (s : String) : Bool :=
  let word :=
    match s.toList.reverse with
    | '\n' :: before => before.reverse
    | _ => s.toList
  !word.isEmpty && word.all isWordChar

/-- An argument as an instruction string holds it. -/
def Argument.print : Argument → String
  | .literal (.text s) => if isBareWord s then s else "'" ++ s ++ "'"
  | a => a.token

/-- A call as an instruction string holds it. -/
def Call.print (call : Call) : String :=
  call.primitive.name ++ "(" ++ ",".intercalate (call.args.map Argument.print) ++ ")"

end ChartStyle
