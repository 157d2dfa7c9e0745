import ChartStyle.Text.Digit
import ChartStyle.Text.Parts

/-!
# Options

A command line mixes words and options. A long option may be shortened as long as it stays
unique, and its value may follow after an equals sign; short options without values may be written
as one. Every argument is looked at by itself first (`Options.classify`): a value is a word, so an
option takes only arguments that do not look like options. `Options.read` then goes from left to
right; it ends at the first mistake and keeps what it has read.
-/

set_option autoImplicit false

namespace ChartStyle.CommandLine

/-- The words that an option takes. -/
inductive Takes where
  | nothing
  | one
  /-- One word at least, and all that follow it. -/
  | many
  deriving DecidableEq

/-- An option with its names, long ones such as `--verbose` and short ones such as `-v`. -/
structure OptionSpec (κ : Type) where
  key : κ
  names : List String
  takes : Takes

/-- An option that was given, with its words. -/
structure Occurrence (κ : Type) where
  key : κ
  words : List String

/-- A text that is attached to an option in one argument. -/
structure Attached where
  /-- An equals sign stands between them. -/
  byEquals : Bool
  text : List Char

/-- What an argument is, seen by itself. -/
inductive ArgumentKind (κ : Type) where
  | word
  /-- Two dashes: all that follows is words. -/
  | divider
  /-- An option, by its long or short name, with the text that is attached to it. -/
  | option (spec : OptionSpec κ) (long : Bool) (attached : Option Attached)
  /-- It looks like an option that there is not. -/
  | unknown

namespace Options

variable {κ : Type}

/-! ## Arguments by themselves -/

/-- The option of that name. -/
def named? (specs : List (OptionSpec κ)) (name : List Char) : Option (OptionSpec κ) :=
  specs.find? fun spec => spec.names.contains (String.ofList name)

/-- The name of a long option. -/
def isLong (name : List Char) : Bool := ['-', '-'].isPrefixOf name

/-- The options that an argument can stand for which is no full name: those whose long name starts
with it, or the short option that it starts with. -/
def candidates (specs : List (OptionSpec κ)) (arg : List Char) : List (ArgumentKind κ) :=
  if isLong arg then
    let (start, attached) := Text.cutAt '=' arg
    specs.flatMap fun spec =>
      (spec.names.filter fun name => start.isPrefixOf name.toList).map fun _ =>
        .option spec true (attached.map fun text => ⟨true, text⟩)
  else
    match named? specs (arg.take 2) with
    | some spec => [.option spec false (some ⟨false, arg.drop 2⟩)]
    | none => []

/-- A negative number: a minus sign and digits, with an optional point before the last of them. -/
def isNegativeNumber (arg : List Char) : Bool :=
  match arg with
  | '-' :: cs =>
    let cs := if cs.getLast? = some '\n' then cs.dropLast else cs
    match cs.dropWhile Text.isDecimal with
    | [] => !cs.isEmpty
    | '.' :: fraction => !fraction.isEmpty && fraction.all Text.isDecimal
    | _ => false
  | _ => false

/-- What an argument is that starts with a dash and is no full name. -/
def classifyDashed (specs : List (OptionSpec κ)) (arg : List Char) : Option (ArgumentKind κ) :=
  match candidates specs arg with
  | [] => some (if isNegativeNumber arg || arg.contains ' ' then .word else .unknown)
  | [kind] => some kind
  | _ => none

/-- What an argument is; nothing when it can stand for several options. -/
def classify (specs : List (OptionSpec κ)) (arg : String) : Option (ArgumentKind κ) :=
  match arg.toList with
  | '-' :: rest =>
    match named? specs ('-' :: rest) with
    | some spec => some (.option spec (isLong ('-' :: rest)) none)
    | none =>
      if rest.isEmpty then some .word
      else
        match Text.cutAt '=' ('-' :: rest) with
        | (name, some text) =>
          match named? specs name with
          | some spec => some (.option spec (isLong name) (some ⟨true, text⟩))
          | none => classifyDashed specs ('-' :: rest)
        | (_, none) => classifyDashed specs ('-' :: rest)
  | _ => some .word

/-- The arguments with what they are; everything after two dashes is words. -/
def classifyAll (specs : List (OptionSpec κ)) :
    List String → Option (List (String × ArgumentKind κ))
  | [] => some []
  | arg :: args =>
    if arg = "--" then some ((arg, .divider) :: args.map fun arg => (arg, .word))
    else do
      let kind ← classify specs arg
      return (arg, kind) :: (← classifyAll specs args)

/-! ## Options with their words -/

/-- The options that one argument gives. -/
inductive Expansion (κ : Type) where
  /-- Some that take no words, and one more with the text that is attached to it. -/
  | options (flags : List κ) (last : OptionSpec κ) (attached : Option (List Char))
  /-- Some that take no words, and letters that are no options. -/
  | letters (flags : List κ) (rest : List Char)

/-- An expansion with one option more that takes no words. -/
def Expansion.withFlag (key : κ) : Expansion κ → Expansion κ
  | .options flags last attached => .options (key :: flags) last attached
  | .letters flags rest => .letters (key :: flags) rest

/-- The options of a short one with text attached: each letter is a short option as long as the
one before it takes no words. Nothing else can be attached to an option that takes none. -/
def expandShort (specs : List (OptionSpec κ)) (spec : OptionSpec κ) (byEquals : Bool) :
    List Char → Option (Expansion κ)
  | [] => if spec.takes = .nothing then none else some (.options [] spec (some []))
  | c :: cs =>
    if spec.takes ≠ .nothing then some (.options [] spec (some (c :: cs)))
    else if byEquals ∨ c = '-' then none
    else
      match named? specs ['-', c] with
      | none => some (.letters [spec.key] (c :: cs))
      | some next =>
        match cs with
        | [] => some (.options [spec.key] next none)
        | d :: ds =>
          (if d = '=' then expandShort specs next true ds
            else expandShort specs next false (d :: ds)).map (.withFlag spec.key)

/-- The options that an argument gives; nothing when text is attached to an option that takes
none. -/
def expand (specs : List (OptionSpec κ)) (spec : OptionSpec κ) (long : Bool)
    (attached : Option Attached) : Option (Expansion κ) :=
  match attached with
  | none => some (.options [] spec none)
  | some attached =>
    if !long then expandShort specs spec attached.byEquals attached.text
    else if spec.takes = .nothing then none
    else some (.options [] spec (some attached.text))

/-- The argument is a word. -/
def isWord : String × ArgumentKind κ → Bool
  | (_, .word) => true
  | _ => false

/-- The words that an option takes from what follows it; nothing when it lacks one. -/
def following (takes : Takes) (rest : List (String × ArgumentKind κ)) : Option (List String) :=
  let words := (rest.takeWhile isWord).map (·.1)
  match takes with
  | .nothing => some []
  | .one => if words.isEmpty then none else some (words.take 1)
  | .many => if words.isEmpty then none else some words

/-- What has been read. -/
structure Reading (κ : Type) where
  /-- The options from left to right. -/
  occurrences : List (Occurrence κ)
  /-- The arguments that belong to no option. -/
  leftOver : List String
  /-- The arguments from the word on at which reading has stopped. -/
  command : List String
  /-- There was no mistake. -/
  complete : Bool

namespace Reading

/-- Nothing read, and nothing wrong. -/
def done : Reading κ := ⟨[], [], [], true⟩

/-- A mistake. -/
def broken : Reading κ := ⟨[], [], [], false⟩

/-- A reading with options in front of it that take no words. -/
def withFlags (r : Reading κ) (flags : List κ) : Reading κ :=
  { r with occurrences := flags.map (⟨·, []⟩) ++ r.occurrences }

/-- A reading with an option in front of it. -/
def withOption (r : Reading κ) (o : Occurrence κ) : Reading κ :=
  { r with occurrences := o :: r.occurrences }

/-- A reading with an argument in front of it that belongs to no option. -/
def withLeftOver (r : Reading κ) (arg : String) : Reading κ :=
  { r with leftOver := arg :: r.leftOver }

end Reading

/-- Reads arguments from left to right. With `stopping` set, the first word that belongs to no
option is a command and ends the reading. -/
def readMarked (specs : List (OptionSpec κ)) (stopping : Bool) :
    List (String × ArgumentKind κ) → Reading κ
  | [] => .done
  | (arg, kind) :: rest =>
    match kind with
    | .unknown => (readMarked specs stopping rest).withLeftOver arg
    | .word | .divider =>
      if stopping then { Reading.done with command := arg :: rest.map (·.1) }
      else (readMarked specs stopping rest).withLeftOver arg
    | .option spec long attached =>
      match expand specs spec long attached with
      | none => .broken
      | some (.letters flags letters) =>
        ((readMarked specs stopping rest).withLeftOver (String.ofList ('-' :: letters))).withFlags
          flags
      | some (.options flags last (some text)) =>
        ((readMarked specs stopping rest).withOption ⟨last.key, [String.ofList text]⟩).withFlags
          flags
      | some (.options flags last none) =>
        match following last.takes rest with
        | none => .broken
        | some words =>
          ((readMarked specs stopping (rest.drop words.length)).withOption
            ⟨last.key, words⟩).withFlags flags
termination_by args => args.length
decreasing_by all_goals simp only [List.length_cons, List.length_drop]; omega

/-- Reads a command line. An argument that can stand for several options is a mistake wherever it
stands, and found first. -/
def read (specs : List (OptionSpec κ)) (stopping : Bool) (args : List String) : Reading κ :=
  match classifyAll specs args with
  | none => .broken
  | some marked => readMarked specs stopping marked

end Options

end ChartStyle.CommandLine
