import CrayAssembler.Options

namespace CrayAssembler

namespace CommandLine

/-- Options that have a value: the listing, the object file, the search path, the external text and
the name of the module. -/
def valueOptions : List Char := ['l', 'o', 'T', 't', 'n']

/-- Options without a value: lower case accepted, no section stack, warnings fatal, implicit
externals. -/
def flagOptions : List Char := ['f', 's', 'w', 'x']

/-- The option that a letter before an equals sign stands for. -/
def hostOption? : Char → Option String
  | 'L' => some "-l"
  | 'B' => some "-o"
  | 'T' => some "-t"
  | 'N' => some "-n"
  | _ => none

/-- One argument in the usual form. A value is a single line. -/
def normalizeArgument (arg : String) : List String :=
  match arg.toList with
  | [c] => if ['F', 'S', 'W', 'X'].contains c then [String.ofList ['-', c.toLower]] else [arg]
  | c :: '=' :: value =>
    if value.contains '\n' then [arg]
    else if c = 'I' then [String.ofList value]
    else
      match hostOption? c with
      | some option => [option, String.ofList value]
      | none => [arg]
  | _ => [arg]

/-- Whether the next argument is the value of this one. -/
def awaitsValue (arg : String) : Bool :=
  match arg.toList with
  | ['-', c] => valueOptions.contains c
  | _ => false

/-- All arguments in the usual form; values of options are kept as they are. -/
def normalizeFrom (isValue : Bool) : List String → List String
  | [] => []
  | arg :: rest =>
    if isValue then arg :: normalizeFrom false rest
    else if awaitsValue arg then arg :: normalizeFrom true rest
    else normalizeArgument arg ++ normalizeFrom false rest

def normalize (args : List String) : List String :=
  normalizeFrom false args

/-- What was given. -/
structure Given where
  inputs : List String := []
  values : List (Char × String) := []
  flags : List Char := []
deriving DecidableEq, Repr, Inhabited

namespace Given

/-- A source file; its path cannot be empty. -/
def addInput? (given : Given) (path : String) : Option Given :=
  if path.isEmpty then none else some { given with inputs := given.inputs ++ [path] }

/-- An option with its value. The path of the external text cannot be empty. -/
def addValue? (given : Given) (option : Char) (value : String) : Option Given :=
  if (given.values.lookup option).isSome || option = 't' && value.isEmpty then none
  else some { given with values := given.values ++ [(option, value)] }

def addFlag? (given : Given) (option : Char) : Option Given :=
  if given.flags.contains option then none
  else some { given with flags := given.flags ++ [option] }

end Given

/-- The letters after a dash. The last result is an option that still needs its value. -/
def readLetters (given : Given) : List Char → Option (Given × Option Char)
  | [] => some (given, none)
  | c :: rest =>
    if flagOptions.contains c then (given.addFlag? c).bind fun given => readLetters given rest
    else if valueOptions.contains c then
      match rest with
      | [] => some (given, some c)
      | '=' :: value => (given.addValue? c (String.ofList value)).map (·, none)
      | value => (given.addValue? c (String.ofList value)).map (·, none)
    else none

/-- Read arguments; `waiting` is an option that still needs its value. There is no result when the
arguments cannot be used. -/
def readFrom (given : Given) (waiting : Option Char) : List String → Option Given
  | [] => if waiting.isSome then none else some given
  | arg :: rest =>
    match arg.toList, waiting with
    | ['-', '-'], none => rest.foldlM Given.addInput? given
    | '-' :: c :: more, none =>
      if c = '-' then none
      else (readLetters given (c :: more)).bind fun (given, waiting) => readFrom given waiting rest
    | '-' :: _ :: _, some _ => none
    | _, some option => (given.addValue? option arg).bind fun given => readFrom given none rest
    | _, none => (given.addInput? arg).bind fun given => readFrom given none rest

/-- Arguments of the assembler; there must be a source file. -/
def read? (args : List String) : Option Given :=
  (readFrom {} none (normalize args)).filter fun given => !given.inputs.isEmpty

/-- Options of the assembler. Without an object file of its own, the object file is named after the
first source file; without a search path, the default one is used. -/
def Given.options (given : Given) (defaultSearchPath : Option String) : Options :=
  let value (option : Char) : Option String := given.values.lookup option
  let object :=
    match value 'o', given.inputs.head? with
    | some arg, _ => .ofArgument arg
    | none, some first => .file (Path.withExtension first "o")
    | none, none => .suppressed
  { listing := ((value 'l').map Destination.ofArgument).getD .suppressed
    object
    searchPath := (((value 'T').or defaultSearchPath).map Options.splitSearchPath).getD []
    externalText := value 't'
    settings :=
      { flexible := given.flags.contains 'f'
        noSectionStack := given.flags.contains 's'
        implicitExternals := given.flags.contains 'x' }
    warningsFatal := given.flags.contains 'w'
    moduleId := value 'n' }

/-- The arguments that are not options, when none is one. -/
def operands? : List String → Option (List String)
  | [] => some []
  | arg :: rest =>
    match arg.toList with
    | ['-', '-'] => some rest
    | '-' :: _ :: _ => none
    | _ => (operands? rest).map (arg :: ·)

/-- The one path that the dump program is given. -/
def dumpPath? (args : List String) : Option String :=
  match operands? args with
  | some [path] => if path.isEmpty then none else some path
  | _ => none

end CommandLine

end CrayAssembler
