import CrayAssembler.Assembly.Directive
import CrayAssembler.Assembly.Instruction

namespace CrayAssembler

namespace Asm

/-- Have lines assembled after this statement. -/
def pushFrame (kind : FrameKind) (lines : List String) : AsmM Unit :=
  if lines.isEmpty then return ()
  else
    modifyStatement fun statement =>
      { statement with frameChange := .push ⟨kind, statement.line, lines⟩ }

/-- Enter a macro. One that replaces another of the same pass is warned of if that was asked for. -/
def defineMacro (prototype : Prototype) (body : List String) : AsmM Unit := do
  let context ← get
  let name := prototype.name
  let redefined := context.currentModule.macros[name]?.any (·.pass = context.pass)
  let flags := context.list.current
  if redefined && flags.contains .definitionWarnings && flags.contains .redefinitionWarning then
    warn .redefinedMacro
  modifyModule fun module =>
    { module with macros := module.macros.insert name (.make prototype body context.pass) }

/-- Whether a line is the statement `name END...`. -/
def endsCapture (line name result : String) : Bool :=
  let fields := Fields.ofStatement line.toList
  !Fields.isComment line.toList && Text.sameLetters fields.result result && fields.location = name

/-- Read the prototype of a macro; comments and blank lines before it are passed over. -/
def capturePrototype (line : String) : AsmM (Option Capture) := do
  if Fields.isComment line.toList || (Text.trim line.toList).isEmpty then return some .prototype
  match Prototype.ofStatement line.toList with
  | .ok prototype => return some (.definition prototype [])
  | .error kind =>
    error kind
    return none

/-- The lines of a group written out. -/
def duplicated (count : Nat) (body : List String) : List String :=
  if body.isEmpty then [] else (List.replicate count body).flatten

/-- Collect a line; the result is what is still being collected. -/
def captureInto (capture : Capture) (line : String) : AsmM (Option Capture) := do
  match capture with
  | .prototype => capturePrototype line
  | .definition prototype body =>
    if endsCapture line prototype.name "ENDM" then
      defineMacro prototype body
      return none
    return some (.definition prototype (body ++ [line]))
  | .group name count (some statements) body =>
    let body := body ++ [line]
    if statements ≤ body.countP fun line => !Fields.isComment line.toList then
      pushFrame .group (duplicated count body)
      return none
    return some (.group name count (some statements) body)
  | .group name count none body =>
    if endsCapture line name "ENDDUP" then
      pushFrame .group (duplicated count body)
      return none
    return some (.group name count none (body ++ [line]))

def captureLine (capture : Capture) (line : String) : AsmM Unit := do
  let next ← captureInto capture line
  modify fun context => { context with capture := next }

/-- Whether a statement is passed over, and what is passed over after it. The statement at which
passing over ends is assembled, unless it is the other branch of the condition. -/
def passOver (fields : Fields) : Option Skip → Bool × Option Skip
  | none => (false, none)
  | some (.statements n) => (true, if n ≤ 1 then none else some (.statements (n - 1)))
  | some (.untilLocation name) =>
    if fields.location ≠ name then (true, some (.untilLocation name))
    else (fields.result = "ELSE", none)

def skipping (fields : Fields) : AsmM Bool := do
  let outcome := passOver fields (← get).skip
  modify fun context => { context with skip := outcome.2 }
  return outcome.1

/-- Give a statement to the macro, directive or machine instruction that its result field names. -/
def dispatchNamed (fields : Fields) : AsmM Unit := do
  match (← get).findMacro? fields.result with
  | some definition =>
    match definition.expand fields.location fields.operand with
    | .ok lines => pushFrame .call lines
    | .error kind => error kind
  | none =>
    match Directive.ofName? fields.result with
    | some directive => directive.run fields
    | none => machineInstruction fields

/-- Assemble a statement. Its result field may be another name of an operation. -/
def dispatch (fields : Fields) : AsmM Unit := do
  if fields.result.isEmpty then
    if !fields.location.isEmpty then error .resultField
  else
    let result := ((← get).findSynonym? fields.result).getD fields.result
    dispatchNamed { fields with result }

/-- The fields of a line after substitution. -/
def fieldsOf (context : Context) (text : String) : Fields :=
  let fields := Fields.ofStatement
    (Fields.withoutCommentary text.toList context.format.current)
  if context.settings.flexible then { fields with result := Text.upper fields.result } else fields

/-- Assemble a line; the result is its text after substitution, when that has changed it. -/
def assembleLine (line : String) : AsmM (Option String) := do
  let context ← get
  match context.capture with
  | some capture =>
    captureLine capture line
    return none
  | none =>
    if Fields.isComment line.toList then return none
    let edited := Micro.substitute line.toList context.findMicro?
    if edited.unknown then warn .microSubstitution
    let fields := fieldsOf context edited.text
    if !(← skipping fields) then dispatch fields
    return if edited.changed then some edited.text else none

/-- Whether the listing flags ask for a line. -/
def isListed (flags : ListFlags) (origin : Option FrameKind) (generates : Bool) : Bool :=
  match origin with
  | none => flags.contains .on
  | some .call => flags.lists .expanded || flags.lists .generating && generates
  | some .group => flags.lists .duplicated

/-- Refuse the frame of a statement that stands at the deepest nesting. -/
def refuseFrame : AsmM Unit := do
  match (← get).statement.frameChange with
  | .push _ =>
    error .illegalNesting
    modifyStatement fun statement => { statement with frameChange := .keep }
  | .keep | .clear => return ()

/-- Count and report the diagnostics of a statement, and list it. -/
def record (statement : StatementState) (text : String) (edited : Option String)
    (origin : Option FrameKind) : AsmM Unit := do
  let faults := statement.diagnostics.toList.filter (· ≠ .moduleEnd)
  let flags := (← get).list.current
  modify fun context => { context with tally := context.tally.add statement.diagnostics }
  if !faults.isEmpty then
    modify fun context =>
      { context with reports := context.reports.push ⟨statement.line, text, faults⟩ }
  if isListed flags origin !statement.generated.isEmpty || !faults.isEmpty then
    let line : Listing.Line :=
      { number := statement.line
        indicators := statement.diagnostics.indicators
        address := statement.address
        value := statement.value
        generated := statement.generated
        text := if flags.contains .edited then edited.getD text else text
        expansion := origin.isSome }
    modify fun context => { context with listing := context.listing.push (.line line) }

/-- Finish a statement. One that closed its module makes the anonymous module current. -/
def finishStatement (text : String) (edited : Option String) (origin : Option FrameKind) :
    AsmM FrameChange := do
  let statement := (← get).statement
  modify fun context => { context with statement := {} }
  if statement.diagnostics.contains .moduleEnd then
    modify fun context =>
      { context.resetModuleState with moduleIndex := Context.anonymousModule }
  if (← get).pass = .two then record statement text edited origin
  return statement.frameChange

/-- Assemble one statement: a line of the source, or one of a frame of kind `origin`. The result is
what it does to the frames. -/
def assembleStatement (number : LineNumber) (text : String) (origin : Option FrameKind)
    (truncated mayNest : Bool) : AsmM FrameChange := do
  modify fun context => { context with statement := { line := number } }
  if truncated then warn .truncation
  let edited ← assembleLine text
  if !mayNest then refuseFrame
  finishStatement text edited origin

/-- Assemble a line of a frame, inside which frames may nest `room` deep. -/
def assembleFrameLine (room : Nat) (frame : Frame) (text : String) : AsmM FrameChange :=
  assembleStatement frame.origin text (some frame.kind) false (0 < room)

/-- Assemble a line of the source and all lines that it generates. -/
def assembleSourceLine (line : SourceLine) : AsmM Unit := do
  let change ← assembleStatement line.number line.text none line.truncated true
  Frame.runAfter assembleFrameLine change

end Asm

end CrayAssembler
