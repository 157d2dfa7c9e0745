import ChartStyle.Instruction.Basic
import ChartStyle.Instruction.Split
import ChartStyle.Text.Number

/-!
# Reading instruction strings

An instruction string is a sequence of calls `NAME(arg, ...)` between semicolons. An argument is
a quoted string, a number, an attribute code (six upper-case letters), or a bare word. Unknown
names and wrong argument counts are errors that name the rule.
-/

set_option autoImplicit false

namespace ChartStyle

/-! ## Arguments -/

namespace Argument

/-- The contents of a token between two equal quotes. -/
def unquoted? : List Char → Option (List Char)
  | q :: c :: cs =>
    if Scan.isQuote q && (c :: cs).getLast? == some q then some (c :: cs).dropLast else none
  | _ => none

/-- The sign, the digits before the point and the digits from the point on, of a token that is a
number: digits with an optional point, one digit at least. -/
def numeral? (cs : List Char) : Option (Bool × List Char × Option (List Char)) :=
  let (negative, rest) := Text.signed cs
  let whole := rest.takeWhile Text.isDecimal
  match rest.dropWhile Text.isDecimal with
  | [] => if whole.isEmpty then none else some (negative, whole, none)
  | '.' :: fraction =>
    if fraction.all Text.isDecimal && !(whole.isEmpty && fraction.isEmpty) then
      some (negative, whole, some fraction)
    else none
  | _ => none

/-- The value of a token that is a number: whole without a point, a double with one. A whole
number beyond the range of the doubles is an infinity. -/
def number? (cs : List Char) : Option Value :=
  (numeral? cs).map fun (negative, whole, fraction?) =>
    let fraction := fraction?.getD []
    let digits := (whole ++ fraction).filterMap Text.decimalValue?
    let x := Double.ofDecimal negative (Text.digitsValue digits) (-(fraction.length : Int))
    if fraction?.isNone && x.isWhole then .int x.truncate else .real x

/-- Six upper-case letters. -/
def isAttributeCode (cs : List Char) : Bool := cs.length == 6 && cs.all Char.isUpper

/-- Reads one argument. -/
def parse (cs : List Char) : Except ArgumentFault Argument :=
  match Text.trim cs with
  | [] => .error .empty
  | token =>
    match unquoted? token with
    | some contents => .ok (.literal (.text (String.ofList contents)))
    | none =>
      match number? token with
      | some v => .ok (.literal v)
      | none =>
        if isAttributeCode token then .ok (.attribute (String.ofList token))
        else .ok (.literal (.text (String.ofList token)))

/-- Reads an argument list; nothing but blanks is the empty one. -/
def parseAll (body : List Char) : Except ArgumentFault (List Argument) :=
  if body.all Text.isBlank then .ok []
  else
    match splitOutsideQuotes ',' body with
    | none => .error (.unterminated (String.ofList body))
    | some parts => parts.mapM parse

end Argument

/-! ## Calls -/

namespace Call

/-- The two letters of the name and the text between the first parenthesis and the last. -/
def shape? (cs : List Char) : Option (List Char × List Char) :=
  match cs.dropWhile Text.isBlank with
  | a :: b :: rest =>
    if a.isAlpha && b.isAlpha then
      match rest.dropWhile Text.isBlank with
      | '(' :: inside =>
        match inside.reverse.dropWhile Text.isBlank with
        | ')' :: body => some ([a, b], body.reverse)
        | _ => none
      | _ => none
    else none
  | _ => none

/-- Reads one call; `rule` names the rule in errors. -/
def parse (text : String) (rule : Option String) : Except Fault Call :=
  let refuse (problem : ConfigurationProblem) : Except Fault Call :=
    .error (.configuration problem rule)
  match shape? text.toList with
  | none => refuse (.malformedInstruction (Text.trimmed text))
  | some (letters, body) =>
    let name := String.ofList (letters.map Char.toUpper)
    match Primitive.ofName? name with
    | none => refuse (.unknownInstruction name)
    | some primitive =>
      match Argument.parseAll body with
      | .error fault => refuse (.malformedArguments (Text.trimmed text) fault)
      | .ok args =>
        let (low, high) := primitive.arity
        if args.length < low ∨ high < args.length then
          refuse (.wrongArgumentCount name low high args.length (Text.trimmed text))
        else
          match primitive, args with
          | .cs, a :: _ =>
            if (Procedure.ofName? a.token).isSome then .ok ⟨primitive, args⟩
            else refuse (.unknownProcedure a.token)
          | _, _ => .ok ⟨primitive, args⟩

end Call

/-- Reads an instruction string; an empty one holds no calls, and blank parts are passed over. -/
def parseInstructions (text : String) (rule : Option String) : Except Fault (List Call) :=
  if Text.isBlankText text then .ok []
  else
    match splitOutsideQuotes ';' text.toList with
    | none =>
      .error (.configuration (.malformedInstructionString (.unterminated text)) rule)
    | some parts =>
      (parts.filter fun part => !part.all Text.isBlank).mapM fun part =>
        Call.parse (String.ofList part) rule

end ChartStyle
