import CrayAssembler.Assembly.Frame
import CrayAssembler.Assembly.Setting
import CrayAssembler.ListFlags
import CrayAssembler.Listing
import CrayAssembler.Module.Basic
import CrayAssembler.Source.Clock
import CrayAssembler.Source.Format
import CrayAssembler.Source.Micro

namespace CrayAssembler

/-- Settings that hold for a whole assembly. -/
structure Settings where
  /-- Mnemonics and registers may be written in lower case. -/
  flexible : Bool := false
  /-- Sections are not saved when others are opened. -/
  noSectionStack : Bool := false
  /-- Symbols that are undefined after pass 1 become externals. -/
  implicitExternals : Bool := false
deriving DecidableEq, Repr, Inhabited

/-- Statements that are passed over. -/
inductive Skip where
  /-- This many more statements. -/
  | statements (count : Nat)
  /-- All up to one with this location field. -/
  | untilLocation (name : String)
deriving DecidableEq, Repr

/-- Lines that are collected and not assembled. -/
inductive Capture where
  /-- The next statement is the prototype of a macro. -/
  | prototype
  | definition (prototype : Prototype) (body : List String)
  /-- A group to be assembled `count` times. It has the given number of statements or, without
  one, ends at the statement that repeats its name. -/
  | group (name : String) (count : Nat) (statements : Option Nat) (body : List String)
deriving DecidableEq, Repr

/-- What is known of the statement being assembled. -/
structure StatementState where
  line : LineNumber := 1
  diagnostics : DiagnosticSet := .empty
  /-- The address shown beside the statement. -/
  address : Option String := none
  /-- The value shown for a statement that defines a symbol. -/
  value : Option String := none
  /-- Code and data generated, in octal. -/
  generated : List String := []
  frameChange : FrameChange := .keep
deriving DecidableEq, Repr, Inhabited

/-- A statement that drew diagnostics. -/
structure Report where
  line : LineNumber
  text : String
  diagnostics : List Diagnostic
deriving DecidableEq, Repr

structure Context where
  settings : Settings
  pass : Pass
  /-- The first module holds what is outside all others. -/
  modules : List Module
  moduleIndex : Nat
  /-- How many modules were opened in this pass. -/
  modulesOpened : Nat
  sectionId : Setting SectionId
  qualifier : Setting String
  base : Setting NumeralBase
  list : Setting ListFlags
  format : Setting SourceFormat
  skip : Option Skip
  capture : Option Capture
  statement : StatementState
  /-- A machine instruction is being assembled. -/
  inInstruction : Bool
  tally : Tally
  clock : Clock
  objects : Array Object.Module
  listing : Array Listing.Item
  reports : Array Report
deriving Inhabited

namespace Context

/-- The module that holds what is outside all others. -/
def anonymousModule : Nat := 0

/-- The start of an assembly; `name` is that of the anonymous module. -/
def initial (settings : Settings) (clock : Clock) (name : String) : Context :=
  { settings
    pass := .one
    modules := [.make name]
    moduleIndex := anonymousModule
    modulesOpened := 0
    sectionId := .make nominalSection
    qualifier := .make ""
    base := .make .decimal
    list := .make .initial
    format := .make .new
    skip := none
    capture := none
    statement := {}
    inInstruction := false
    tally := {}
    clock
    objects := #[]
    listing := #[]
    reports := #[] }

/-- What a module starts with. -/
def resetModuleState (context : Context) : Context :=
  { context with
    sectionId := .make nominalSection
    qualifier := .make ""
    base := .make .decimal }

/-- What a pass starts with. -/
def startPass (context : Context) (pass : Pass) : Context :=
  { context.resetModuleState with
    pass
    moduleIndex := anonymousModule
    modulesOpened := 0
    list := .make .initial
    format := .make .new
    skip := none
    capture := none }

def currentModule (context : Context) : Module :=
  context.modules.getD context.moduleIndex default

def currentSection (context : Context) : Section :=
  context.currentModule.getSection context.sectionId.current

/-- Addresses in the current module are relocatable. -/
def relocatable (context : Context) : Bool :=
  !context.currentModule.absolute

/-- The current module, then the anonymous one, for what is shared by all modules. -/
def searched (context : Context) : List Module :=
  [context.currentModule, context.modules.getD anonymousModule default]

/-- A macro as it can be called in this pass. -/
def findMacro? (context : Context) (name : String) : Option MacroDefinition :=
  (context.searched.filterMap fun module => module.macros[name]?).find? fun definition =>
    definition.pass = context.pass

def findMicro? (context : Context) (name : String) : Option String :=
  match context.searched.findSome? fun module => module.micros[name]? with
  | some text => some text
  | none =>
    match name with
    | "$DATE" => some context.clock.date
    | "$TIME" => some context.clock.time
    | "$JDATE" => some context.clock.julian
    | _ => Micro.builtin name context.qualifier.current

/-- The operation that a name is another name of. -/
def findSynonym? (context : Context) (name : String) : Option String :=
  context.searched.findSome? fun module => module.synonyms[name]?

def modifyModule (context : Context) (change : Module → Module) : Context :=
  { context with modules := context.modules.modify context.moduleIndex change }

def modifySection (context : Context) (change : Section → Section) : Context :=
  context.modifyModule fun module => module.modifySection context.sectionId.current change

def modifyStatement (context : Context) (change : StatementState → StatementState) : Context :=
  { context with statement := change context.statement }

def register (context : Context) (d : Diagnostic) : Context :=
  context.modifyStatement fun statement =>
    { statement with diagnostics := statement.diagnostics.insert d }

end Context

/-- Steps of an assembly. -/
abbrev AsmM := StateM Context

namespace Asm

def error (kind : ErrorKind) : AsmM Unit :=
  modify (·.register (.error kind))

def warn (kind : WarningKind) : AsmM Unit :=
  modify (·.register (.warning kind))

def note (d : Diagnostic) : AsmM Unit :=
  modify (·.register d)

def modifyModule (change : Module → Module) : AsmM Unit :=
  modify (·.modifyModule change)

def modifySection (change : Section → Section) : AsmM Unit :=
  modify (·.modifySection change)

def modifyStatement (change : StatementState → StatementState) : AsmM Unit :=
  modify (·.modifyStatement change)

/-- Complain of a location field on a statement that has no use for one. -/
def ignoreLocation (fields : Fields) : AsmM Unit :=
  if fields.location.isEmpty then return () else warn .ignoredLocationSymbol

/-- Require an empty operand field. -/
def noOperand (fields : Fields) : AsmM Unit :=
  if fields.operand.isEmpty then return () else error .operandField

/-- Take a changed setting over, or register why it cannot be changed. -/
def change {α : Type} (outcome : Except StackError (Setting α))
    (put : Setting α → Context → Context) : AsmM Unit :=
  match outcome with
  | .ok setting => modify (put setting)
  | .error reason => error reason.kind

end Asm

end CrayAssembler
