import CrayAssembler.Assembly.Operand

namespace CrayAssembler

namespace Asm

/-- The section with this name, type and residency. Pass 1 creates it when there is none. -/
def findOrAddSection (name : String) (type : SectionType) (residency : Residency) :
    AsmM (Option SectionId) := do
  let context ← get
  let module := context.currentModule
  match module.findSection? name type residency, context.pass with
  | some id, _ => return some id
  | none, .one =>
    modifyModule fun module => module.addSection name type residency
    return some module.sections.length
  | none, .two =>
    error .operandField
    return none

/-- Make a section current, saving the one before it unless sections are not saved. -/
def selectSection (id : SectionId) : AsmM Unit := do
  let context ← get
  if context.settings.noSectionStack then
    modify fun context => { context with sectionId := { context.sectionId with current := id } }
  else
    change (context.sectionId.replace id) fun sectionId context => { context with sectionId }

/-- Go back to the section before, or to the nominal one when sections are not saved. -/
def previousSection : AsmM Unit := do
  let context ← get
  if context.settings.noSectionStack then
    modify fun context =>
      { context with sectionId := { context.sectionId with current := nominalSection } }
  else
    change context.sectionId.restore fun sectionId context => { context with sectionId }

/-- Type and residency that the keywords of an operand give. -/
def sectionKeywords : List String → SectionType × Residency →
    Option (SectionType × Residency)
  | [], found => some found
  | word :: rest, (type, residency) =>
    if word.isEmpty then sectionKeywords rest (type, residency)
    else
      match SectionType.ofKeyword? word, Residency.ofKeyword? word with
      | some type, _ => sectionKeywords rest (type, residency)
      | none, some residency => sectionKeywords rest (type, residency)
      | none, none => none

/-- Open a section by its location field. The name of a task common section is also a symbol. -/
def openSection (fields : Fields) : AsmM Unit := do
  let name := fields.location
  if fields.operand = "*" then
    ignoreLocation fields
    previousSection
  else
    match sectionKeywords (Fields.subfields fields.operand) (.mixed, .cm) with
    | none => error .operandField
    | some (type, residency) =>
      if !name.isEmpty && !Fields.isIdentifier name then error .locationField
      else
        match ← findOrAddSection name type residency with
        | none => return ()
        | some id =>
          selectSection id
          if type = .taskCom && !name.isEmpty then
            let context ← get
            let base := UInt64.ofNat context.currentSection.baseWord
            defineSymbol name (.address .word id base context.relocatable) false

/-- Open a section of a given type by its operand field. -/
def openNamed (type : SectionType) (fields : Fields) : AsmM Unit := do
  ignoreLocation fields
  let name := fields.operand
  if name = "*" then previousSection
  else if name.isEmpty || Fields.isIdentifier name then
    match ← findOrAddSection name type .cm with
    | none => return ()
    | some id => selectSection id
  else error .operandField

def setQualifier (fields : Fields) : AsmM Unit := do
  ignoreLocation fields
  let name := fields.operand
  let setting := (← get).qualifier
  let put (qualifier : Setting String) (context : Context) : Context :=
    { context with qualifier }
  if name = "*" then change setting.restore put
  else if name.isEmpty || Fields.isIdentifier name then change (setting.replace name) put
  else error .operandField

/-- Replace a setting by the one that an operand names, or restore it. -/
def changeNamed {α : Type} (fields : Fields) (ofOperand? : String → Option α)
    (view : Context → Setting α) (put : Setting α → Context → Context) : AsmM Unit := do
  ignoreLocation fields
  let setting := view (← get)
  if fields.operand = "*" then change setting.restore put
  else
    match ofOperand? fields.operand with
    | some new => change (setting.replace new) put
    | none => error .operandField

def setBase (fields : Fields) : AsmM Unit :=
  changeNamed fields NumeralBase.ofOperand? (·.base) fun base context => { context with base }

def setFormat (fields : Fields) : AsmM Unit :=
  changeNamed fields SourceFormat.ofOperand? (·.format) fun format context =>
    { context with format }

end Asm

end CrayAssembler
