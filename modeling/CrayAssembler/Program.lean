import CrayAssembler.Assembly.Basic
import CrayAssembler.CommandLine
import CrayAssembler.Files.Basic
import CrayAssembler.Object.Dump
import CrayAssembler.Object.Reader

namespace CrayAssembler

/-- A source file that has been read. -/
structure SourceFile where
  path : String
  text : String
deriving DecidableEq, Repr

/-- The name of what is outside all modules when nothing else gives one. -/
def defaultModuleId : String := "MAIN"

/-- Assemble texts that are in memory, the external one first. -/
def Assembly.ofSources (external : Option String) (sources : List SourceFile) (options : Options)
    (clock : Clock) : Assembly :=
  let name :=
    match options.moduleId, sources.head? with
    | some id, _ => Options.moduleIdentifier id
    | none, some first => Options.moduleIdentifierFor first.path
    | none, none => defaultModuleId
  ofLines (linesOfTexts 1 (external.toList ++ sources.map (·.text))) name options.settings clock

inductive FileAction where
  | read
  | write
  | create
deriving DecidableEq, Repr

def FileAction.verb : FileAction → String
  | read => "read"
  | write => "write"
  | create => "open"

/-- What stops the assembler. Faults of the program that is assembled do not. -/
inductive Failure where
  | file (action : FileAction) (path : String) (reason : FileError)
  | externalTextNotFound (name : String) (searchPath : List String)
deriving DecidableEq, Repr

def Failure.message : Failure → String
  | file action path reason =>
    "failed to " ++ action.verb ++ " file " ++ path ++ ": " ++ reason.message
  | externalTextNotFound name searchPath =>
    "cannot find external text " ++ name ++ " in search path [" ++ ", ".intercalate searchPath ++
      "]"

namespace Program

variable {m : Type → Type} [Monad m]

abbrev RunM (m : Type → Type) := ExceptT Failure m

def readSource (fs : FileSystem m) (path : String) : RunM m SourceFile := do
  match ← fs.read path with
  | .error reason => throw (.file .read path reason)
  | .ok bytes =>
    match Text.ofBytes? bytes with
    | some text => return ⟨path, text⟩
    | none => throw (.file .read path .invalidText)

/-- The first of some paths that is a file. -/
def firstFile? (fs : FileSystem m) : List String → m (Option String)
  | [] => return none
  | path :: rest => do
    if ← fs.isFile path then return some path
    firstFile? fs rest

/-- Where external text is. A path with a directory, or one that is there as given, is taken as it
is; otherwise the directories of the search path are tried in turn. -/
def findExternalText (fs : FileSystem m) (name : String) (searchPath : List String) :
    RunM m String := do
  if Path.hasDirectory name then return name
  let candidates := name :: searchPath.map fun directory => Path.join directory name
  match ← (firstFile? fs candidates : m (Option String)) with
  | some path => return path
  | none => throw (.externalTextNotFound name searchPath)

def writeFile (fs : FileSystem m) (action : FileAction) (path : String) (contents : Bytes) :
    RunM m Unit := do
  match ← fs.write path contents with
  | .ok () => return ()
  | .error reason => throw (.file action path reason)

def writeTo (fs : FileSystem m) (action : FileAction) (destination : Destination)
    (contents : Bytes) : RunM m Unit :=
  match destination with
  | .suppressed => return ()
  | .standardOutput => fs.print contents
  | .file path => writeFile fs action path contents

/-- Read the sources, assemble them and write the listing and, unless there are errors, the object
file. -/
def assembleFiles (fs : FileSystem m) (inputs : List String) (options : Options) (clock : Clock) :
    RunM m Assembly := do
  let external ←
    match options.externalText with
    | none => pure none
    | some name => do
      let found ← readSource fs (← findExternalText fs name options.searchPath)
      pure (some found.text)
  let sources ← inputs.mapM (readSource fs)
  let assembly := Assembly.ofSources external sources options clock
  writeTo fs .write options.listing (Text.bytes assembly.listing.toList)
  if assembly.tally.errors = 0 then
    writeTo fs .create options.object (Object.write assembly.objects)
  return assembly

/-- How a program ends: an exit status and its messages, or arguments that it cannot use. -/
inductive Ending where
  | badUsage
  | finished (status : Nat) (messages : String)
deriving DecidableEq, Repr

def reportLines (reports : List Report) : String :=
  String.join (reports.flatMap fun report => report.diagnostics.map fun d =>
    "line " ++ Text.decimal report.line ++ ": " ++ d.message ++ "\n")

/-- The end of an assembly. -/
def Ending.ofAssembly (assembly : Assembly) (warningsFatal : Bool) : Ending :=
  let lines := reportLines assembly.reports
  if assembly.failed warningsFatal then
    .finished 1 (lines ++ "assembly failed: " ++ Text.decimal assembly.tally.errors ++
      " error(s), " ++ Text.decimal assembly.tally.warnings ++ " warning(s)\n")
  else .finished 0 lines

/-- The assembler with the arguments of a command line. -/
def assemble (fs : FileSystem m) (args : List String) (defaultSearchPath : Option String)
    (clock : Clock) : m Ending := do
  match CommandLine.read? args with
  | none => return .badUsage
  | some given =>
    let options := given.options defaultSearchPath
    match ← (assembleFiles fs given.inputs options clock).run with
    | .error failure => return .finished 1 (failure.message ++ "\n")
    | .ok assembly => return .ofAssembly assembly options.warningsFatal

/-- The dump of an object file with the arguments of a command line. -/
def dump (fs : FileSystem m) (args : List String) : m Ending := do
  match CommandLine.dumpPath? args with
  | none => return .badUsage
  | some path =>
    match ← fs.read path with
    | .error reason =>
      return .finished 1 ("failed to read " ++ path ++ ": " ++ reason.message ++ "\n")
    | .ok bytes =>
      match Object.read bytes with
      | .error reason => return .finished 1 (reason.message ++ "\n")
      | .ok modules =>
        fs.print (Text.bytes (Object.dump modules).toList)
        return .finished 0 ""

end Program

end CrayAssembler
