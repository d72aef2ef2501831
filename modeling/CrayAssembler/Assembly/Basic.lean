import CrayAssembler.Assembly.Statement

namespace CrayAssembler

/-- The outcome of assembling a program. -/
structure Assembly where
  /-- Modules in the order of the source, then what is outside all of them. -/
  objects : List Object.Module
  tally : Tally
  listing : String
  /-- Statements that drew diagnostics. -/
  reports : List Report
deriving DecidableEq, Repr

namespace Asm

/-- What is done between the passes. -/
def betweenPasses (context : Context) : Context :=
  let declare (module : Module) : Module :=
    if context.settings.implicitExternals then module.declareImplicitExternals else module
  { context with modules := context.modules.map fun module => (declare module).preparePassTwo }

/-- Close the anonymous module at the end of the source. Diagnostics that this raises belong to no
statement. -/
def closeAnonymousModule (line : LineNumber) : AsmM Unit := do
  modify fun context =>
    { context with moduleIndex := Context.anonymousModule, statement := { line } }
  closeModule
  let context ← get
  let diagnostics := context.statement.diagnostics
  modifyStatement fun statement => { statement with diagnostics := .empty }
  if context.pass = .two && !diagnostics.isEmpty then
    modify fun context =>
      { context with
        tally := context.tally.add diagnostics
        reports := context.reports.push ⟨line, "", diagnostics.toList⟩ }

/-- Closes a module that is open at the end of the source. -/
def implicitEnd : String := "         END"

/-- Close what is still open after the last line. -/
def finishPass (afterLast : LineNumber) : AsmM Unit := do
  modify fun context => { context with capture := none }
  if (← get).moduleIndex ≠ Context.anonymousModule then
    modify fun context => { context with skip := none }
    discard (assembleStatement afterLast implicitEnd none false true)
  closeAnonymousModule afterLast

def runPass (lines : List SourceLine) (pass : Pass) : AsmM Unit := do
  modify fun context => context.startPass pass
  lines.forM assembleSourceLine
  finishPass ((lines.getLast?.map (·.number + 1)).getD 1)

def runPasses (lines : List SourceLine) : AsmM Unit := do
  runPass lines .one
  modify betweenPasses
  runPass lines .two

end Asm

namespace Assembly

/-- Assemble lines; `name` is that of the anonymous module. -/
def ofLines (lines : List SourceLine) (name : String) (settings : Settings) (clock : Clock) :
    Assembly :=
  let ((), context) := (Asm.runPasses lines).run (.initial settings clock name)
  { objects := context.objects.toList
    tally := context.tally
    listing := Listing.render context.listing.toList ++ Listing.summary context.tally
    reports := context.reports.toList }

/-- Lines of several texts, numbered through. -/
def linesOfTexts (first : LineNumber) : List String → List SourceLine
  | [] => []
  | text :: rest =>
    SourceLine.ofText text first ++
      linesOfTexts (first + (SourceLine.physical text.toList).length) rest

def failed (assembly : Assembly) (warningsFatal : Bool) : Bool :=
  assembly.tally.failed warningsFatal

end Assembly

end CrayAssembler
