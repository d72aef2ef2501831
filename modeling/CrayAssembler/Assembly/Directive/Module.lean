import CrayAssembler.Assembly.Operand
import CrayAssembler.Module.Finish

namespace CrayAssembler

namespace Asm

/-- Names of modules are at most this long. -/
def maxModuleName : Nat := 8

/-- Make a module current and start it afresh; all frames are dropped. -/
def enterModule (index : Nat) : AsmM Unit := do
  modify fun context =>
    { context.resetModuleState with
      moduleIndex := index
      modulesOpened := context.modulesOpened + 1 }
  modifyStatement fun statement => { statement with frameChange := .clear }

/-- Open a module. Pass 1 creates it; pass 2 takes them up in the same order. -/
def openModule (fields : Fields) : AsmM Unit := do
  ignoreLocation fields
  let name := fields.operand
  let context ← get
  if !Fields.isIdentifier name || maxModuleName < name.length then error .operandField
  else if context.moduleIndex ≠ Context.anonymousModule then error .illegalNesting
  else
    match context.pass with
    | .one =>
      if (context.modules.drop 1).any (·.name = name) then error .doubleDefinition
      else
        modify fun context => { context with modules := context.modules ++ [.make name] }
        enterModule context.modules.length
    | .two =>
      let next := context.modulesOpened + 1
      if context.modules[next]?.any (·.name = name) then enterModule next
      else error .doubleDefinition

/-- Give the symbol table and the object module of the current module, in pass 2. The anonymous
module gives none when it is empty. -/
def produceObject : AsmM Unit := do
  let context ← get
  let module := context.currentModule
  let wanted := context.pass = .two &&
    !(context.moduleIndex = Context.anonymousModule && module.isEmpty)
  if wanted then
    if context.list.current.lists .symbols then
      modify fun context =>
        { context with listing := context.listing.push (.symbols module.name module.listedSymbols) }
    if module.lacksEntry then error .undefinedSymbol
    modify fun context => { context with objects := context.objects.push module.toObject }

/-- Finish the current module: place its literals and give what it has become. -/
def closeModule : AsmM Unit := do
  let (finished, refused) := (← get).currentModule.placeLiterals
  modifyModule fun _ => { finished with ended := true }
  if let some kind := refused then error kind
  produceObject

def endModule (fields : Fields) : AsmM Unit := do
  ignoreLocation fields
  noOperand fields
  if (← get).moduleIndex = Context.anonymousModule then error .illegalNesting
  else
    closeModule
    note .moduleEnd

def makeAbsolute (fields : Fields) : AsmM Unit := do
  ignoreLocation fields
  noOperand fields
  modifyModule fun module => { module with absolute := true }

def setComment (fields : Fields) : AsmM Unit := do
  ignoreLocation fields
  match Fields.unquote fields.operand.toList with
  | some text => modifyModule fun module => { module with comment := String.ofList text }
  | none => error .operandField

/-- Ask for words of stack. They are counted in pass 1. -/
def addStack (fields : Fields) : AsmM Unit := do
  ignoreLocation fields
  match ← absoluteOperand fields.operand with
  | none => return ()
  | some words =>
    if (← get).pass = .one then
      modifyModule fun module =>
        { module with stackSize := min (module.stackSize + words.toNat) (UInt64.size - 1) }

/-- Say where the program starts, in pass 2. -/
def setStart (fields : Fields) : AsmM Unit := do
  ignoreLocation fields
  let context ← get
  if !Fields.isIdentifier fields.operand then error .operandField
  else if context.pass = .two then
    let key := resolve context fields.operand
    let usable := (context.currentModule.symbols.get? key).any fun value =>
      !value.isUndefined && !value.isExternal
    if usable then modifyModule fun module => { module with start := some key }
    else error .undefinedSymbol

end Asm

end CrayAssembler
