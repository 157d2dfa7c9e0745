import ChartStyle.Text.Quoted

/-!
# Faults

What can go wrong, by cause. A `ConfigurationProblem` lies in static tables and settings, a
`RegistryProblem` in the symbol registry, a `ParameterProblem` in what a caller passes; a
`DataFault` is a value of the wrong kind or out of range wherever it stands, and a `FileFault`
comes from the file system. `Fault.message` has the wording of each.
-/

set_option autoImplicit false

namespace ChartStyle

/-! ## Data -/

/-- The kinds of number that a value is turned into. -/
inductive NumberKind where
  | whole
  | real
  deriving DecidableEq

/-- A value of the wrong kind or out of range. -/
inductive DataFault where
  /-- A mapping has no entry of that key. -/
  | missingKey (key : String)
  /-- A list or text is too short. -/
  | missingPosition
  /-- A value that is no mapping is used as one. -/
  | notAMapping (kind : String)
  /-- The kind of argument has no such part. -/
  | missingPart (part : String)
  /-- A value that is neither a number nor a text is to become a number. -/
  | notANumber (wanted : NumberKind) (kind : String)
  /-- Values that have no order are compared. -/
  | notComparable (kind other : String)
  /-- A value that has no items is gone through. -/
  | notIterable (kind : String)
  /-- A value that has no positions is indexed. -/
  | notIndexable (kind : String)
  /-- A list or mapping is used as a key. -/
  | notAKey (kind : String)
  /-- The settings are no mapping. -/
  | settingsNotAMapping (kind : String)
  /-- A setting is named by something other than a text. -/
  | unnamedSetting
  /-- There is no setting of that name. -/
  | unexpectedSetting (name : String)
  /-- A text is no whole number. -/
  | unreadableInt (text : String)
  /-- A text is no number. -/
  | unreadableReal (text : String)
  /-- A not-a-number is to become a whole number. -/
  | nanToInt
  /-- An infinity is to become a whole number. -/
  | infinityToInt
  /-- A whole number is beyond the range of the doubles. -/
  | intTooLarge
  /-- A list item that should be a pair is none. -/
  | notAPair
  /-- A text names no member of a closed set. -/
  | unknownMember (name set : String)
  /-- More decimal places are asked for than a number can be written with. -/
  | tooManyPlaces
  /-- Work is to be shared among no workers. -/
  | noWorkers
  deriving DecidableEq

/-- The broad classes of data faults. -/
inductive FaultClass where
  | wrongType
  | badValue
  | missingKey
  | missingPosition
  | missingMember
  | tooLarge
  deriving DecidableEq

namespace DataFault

/-- The class of a data fault. -/
def faultClass : DataFault → FaultClass
  | .missingKey _ => .missingKey
  | .missingPosition => .missingPosition
  | .notAMapping _ | .missingPart _ => .missingMember
  | .notANumber _ _ | .notComparable _ _ | .notIterable _ | .notIndexable _ | .notAKey _
  | .settingsNotAMapping _ | .unnamedSetting | .unexpectedSetting _ => .wrongType
  | .unreadableInt _ | .unreadableReal _ | .nanToInt | .notAPair | .unknownMember _ _
  | .tooManyPlaces | .noWorkers => .badValue
  | .infinityToInt | .intTooLarge => .tooLarge

/-- The wording of a data fault. -/
def message : DataFault → String
  | .missingKey key => Text.quoted key
  | .missingPosition => "there is no such position"
  | .notAMapping kind => s!"a value of kind '{kind}' is no mapping"
  | .missingPart part => s!"the argument has no {part}"
  | .notANumber .whole kind =>
      s!"int() argument must be a string, a bytes-like object or a real number, not '{kind}'"
  | .notANumber .real kind => s!"float() argument must be a string or a real number, not '{kind}'"
  | .notComparable kind other =>
      s!"values of kind '{kind}' and '{other}' have no order"
  | .notIterable kind => s!"a value of kind '{kind}' has no items"
  | .notIndexable kind => s!"a value of kind '{kind}' has no positions"
  | .notAKey kind => s!"a value of kind '{kind}' cannot be a key"
  | .settingsNotAMapping kind =>
      s!"enc_styles.config.LayerConfig() argument after ** must be a mapping, not {kind}"
  | .unnamedSetting => "keywords must be strings"
  | .unexpectedSetting name =>
      s!"LayerConfig.__init__() got an unexpected keyword argument '{name}'"
  | .unreadableInt text => s!"invalid literal for int() with base 10: {Text.quoted text}"
  | .unreadableReal text => s!"could not convert string to float: {Text.quoted text}"
  | .nanToInt => "cannot convert float NaN to integer"
  | .infinityToInt => "cannot convert float infinity to integer"
  | .intTooLarge => "int too large to convert to float"
  | .notAPair => "dictionary update sequence element #0 has length 1; 2 is required"
  | .unknownMember name set => s!"{Text.quoted name} is not a valid {set}"
  | .tooManyPlaces => "precision too big"
  | .noWorkers => "max_workers must be greater than 0"

end DataFault

/-! ## Files -/

/-- What the file system refuses. -/
inductive FileFault where
  /-- The path names nothing. -/
  | notFound (path : String)
  /-- The path of a settings file names nothing. -/
  | missingSettings (path : String)
  /-- The path, or a directory on its way, is already something else. -/
  | alreadyExists (path : String)
  /-- The path goes through a file. -/
  | notADirectory (path : String)
  /-- The path names a directory. -/
  | isADirectory (path : String)
  deriving DecidableEq

/-- The wording of a file fault, with the system's error number. -/
def FileFault.message : FileFault → String
  | .notFound path => s!"[Errno 2] No such file or directory: {Text.quoted path}"
  | .missingSettings path => s!"Configuration file not found: {path}"
  | .alreadyExists path => s!"[Errno 17] File exists: {Text.quoted path}"
  | .notADirectory path => s!"[Errno 20] Not a directory: {Text.quoted path}"
  | .isADirectory path => s!"[Errno 21] Is a directory: {Text.quoted path}"

/-! ## Instruction strings -/

/-- Why the arguments of a call cannot be read. -/
inductive ArgumentFault where
  /-- A quote is never closed in that text. -/
  | unterminated (text : String)
  /-- Nothing stands between two separators. -/
  | empty
  deriving DecidableEq

/-- The wording of an argument fault. -/
def ArgumentFault.message : ArgumentFault → String
  | .unterminated text => s!"unterminated string in {Text.quoted text}"
  | .empty => "empty argument"

/-! ## The library's own errors -/

/-- What is wrong with static tables and settings. -/
inductive ConfigurationProblem where
  | unknownMode (name : String)
  | unsupportedFormat (suffix : String)
  | invalidConfiguration (path detail : String)
  | nonNumericThreshold (name shown : String)
  | missingSource
  | malformedInstruction (text : String)
  | malformedInstructionString (fault : ArgumentFault)
  | unknownInstruction (name : String)
  | malformedArguments (text : String) (fault : ArgumentFault)
  | wrongArgumentCount (name : String) (low high count : Nat) (text : String)
  | unknownProcedure (name : String)
  | nestedProcedure (name : String)
  | unknownOperator (name : String)
  | unknownTableSet (name : String)
  | invalidRule (fault : DataFault)
  | attributesNotAMapping
  | unreadableTable (path : String)
  | unparsableTable (path : String)
  | tableNotAList (path : String)
  | unknownColour (token : String)
  | unknownLineStyle (token : String)
  | lineWidthOutOfRange (token : String)
  | transparencyOutOfRange (token : String)
  | invalidColour (token shown : String)
  | missingModes (names : List String)
  | differentTokens (mode : String) (tokens : List String)
  | unreadablePalette (path : String)
  | unparsablePalette (path : String)
  | paletteNotAMapping (path : String)
  deriving DecidableEq

/-- The wording of a configuration problem. -/
def ConfigurationProblem.message : ConfigurationProblem → String
  | .unknownMode name => s!"Unknown display mode '{name}'. Available modes: DAY, DUSK, NIGHT"
  | .unsupportedFormat suffix => s!"Unsupported file format: {suffix}. Use .yaml, .yml, or .json"
  | .invalidConfiguration path detail => s!"Invalid configuration in {path}: {detail}"
  | .nonNumericThreshold name shown => s!"{name} must be numeric, got {shown}"
  | .missingSource => "source_id must be a non-empty string"
  | .malformedInstruction text => s!"Malformed instruction '{text}'"
  | .malformedInstructionString fault => s!"Malformed instruction string: {fault.message}"
  | .unknownInstruction name => s!"Unknown instruction '{name}'"
  | .malformedArguments text fault => s!"Malformed arguments in '{text}': {fault.message}"
  | .wrongArgumentCount name low high count text =>
      s!"{name} takes {low}-{high} arguments, got {count} in '{text}'"
  | .unknownProcedure name => s!"Unknown conditional procedure '{name}'"
  | .nestedProcedure name => s!"Procedure {name} returned a CS call"
  | .unknownOperator name => s!"Unknown choice operator '{name}'"
  | .unknownTableSet name => s!"Unknown table set '{name}'"
  | .invalidRule fault => s!"Invalid lookup rule: {fault.message}"
  | .attributesNotAMapping => "Lookup rule attributes must be a mapping"
  | .unreadableTable path => s!"Unable to read lookup table '{path}'"
  | .unparsableTable path => s!"Lookup table '{path}' could not be parsed"
  | .tableNotAList path => s!"Lookup table '{path}' must contain a list of rules"
  | .unknownColour token => s!"Unknown colour token '{token}'"
  | .unknownLineStyle token => s!"Unknown line style '{token}'"
  | .lineWidthOutOfRange token => s!"Line width must be 1-9, got '{token}'"
  | .transparencyOutOfRange token => s!"Transparency must be 0-4, got '{token}'"
  | .invalidColour token shown => s!"Invalid colour for token {token}: {shown}"
  | .missingModes names => "Palette is missing modes: " ++ ", ".intercalate names
  | .differentTokens mode tokens =>
      s!"Palette for {mode} does not define the same tokens as DAY: " ++ ", ".intercalate tokens
  | .unreadablePalette path => s!"Unable to read colour palette '{path}'"
  | .unparsablePalette path => s!"Colour palette '{path}' is not valid YAML"
  | .paletteNotAMapping path => s!"Colour palette '{path}' must map modes to colour tables"

/-- What is wrong with a symbol registry. -/
inductive RegistryProblem where
  | invalidEntry (symbol : String) (fault : DataFault)
  | unreadable (path : String)
  | malformed (path : String)
  | notAnObject (path : String)
  deriving DecidableEq

/-- The wording of a registry problem. -/
def RegistryProblem.message : RegistryProblem → String
  | .invalidEntry symbol fault =>
      s!"Invalid registry entry for symbol '{symbol}': {fault.message}"
  | .unreadable path => s!"Unable to read symbol registry '{path}'"
  | .malformed path => s!"Symbol registry '{path}' is not valid JSON"
  | .notAnObject path => s!"Symbol registry '{path}' must contain a JSON object"

/-- What is wrong with what a caller passes. -/
inductive ParameterProblem where
  | incompleteFeature (shown : String)
  | incompleteGeoJson (shown : String)
  | unreadableCatalog (path : String)
  | unparsableCatalog (path : String)
  | catalogNotAList (path : String)
  | sourceNotAMapping (kind : String)
  | noModes
  deriving DecidableEq

/-- The wording of a parameter problem. -/
def ParameterProblem.message : ParameterProblem → String
  | .incompleteFeature shown => s!"Catalog entry needs object_class and table_set: {shown}"
  | .incompleteGeoJson shown =>
      s!"GeoJSON feature needs a tippecanoe layer and a geometry: {shown}"
  | .unreadableCatalog path => s!"Unable to read feature catalog '{path}'"
  | .unparsableCatalog path => s!"Feature catalog '{path}' could not be parsed"
  | .catalogNotAList path => s!"Feature catalog '{path}' must contain a list of features"
  | .sourceNotAMapping kind =>
      s!"source must be a mapping describing a vector source, got {kind}"
  | .noModes => "No display modes to compile"

/-! ## All faults -/

/-- Everything that an operation of the library can fail with. -/
inductive Fault where
  /-- A table or setting is malformed; the rule is named when one is to blame. -/
  | configuration (problem : ConfigurationProblem) (rule : Option String)
  | registry (problem : RegistryProblem)
  | parameter (problem : ParameterProblem)
  | data (fault : DataFault)
  | file (fault : FileFault)
  | malformedJson
  | malformedYaml
  deriving DecidableEq

namespace Fault

/-- The wording of a fault; a rule that is named, and not by an empty text, follows in brackets. -/
def message : Fault → String
  | .configuration problem rule =>
      match rule with
      | none => problem.message
      | some "" => problem.message
      | some rule => s!"{problem.message} (rule: {rule})"
  | .registry problem => problem.message
  | .parameter problem => problem.message
  | .data fault => fault.message
  | .file fault => fault.message
  | .malformedJson => "malformed JSON"
  | .malformedYaml => "malformed YAML"

/-- A configuration, registry or parameter error: one that the library raises as its own. -/
def isOwn : Fault → Bool
  | .configuration _ _ | .registry _ | .parameter _ => true
  | _ => false

/-- A value that has the right kind and is out of its range, unreadable text included. -/
def isBadValue : Fault → Bool
  | .data fault => fault.faultClass == .badValue
  | .malformedJson => true
  | _ => false

/-- A text that is not in the format that it should have. -/
def isMalformed : Fault → Bool
  | .malformedJson | .malformedYaml => true
  | _ => false

/-- A fault of the file system. -/
def isFile : Fault → Bool
  | .file _ => true
  | _ => false

end Fault

end ChartStyle
