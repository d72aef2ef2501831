import CrayAssembler.Assembly.Emit

namespace CrayAssembler

namespace Asm

/-- Words of an instruction buffer. -/
def instructionBufferWords : Nat := 32

/-- The most words that can be reserved at once. -/
def maxReserveWords : Nat := 0o20000000

/-- A word address in the current section, or a number. -/
def counterOperand (operand : String) : AsmM (Option Nat) := do
  match ← evaluateOperand operand with
  | none => return none
  | some evaluation =>
    let value := evaluation.value
    let context ← get
    if value.isUndefined then return none
    if value.isExternal || value.home.any (· ≠ context.sectionId.current) then
      error .relocatableField
      return none
    if value.isFloat then
      error .valueType
      return none
    if value.addressKind = .parcel then
      if value.numeric % 4 ≠ 0 then warn .addressCounter
      return some (value.numeric.toNat / 4)
    return some value.numeric.toNat

/-- Move the location counter forward. -/
def setLocation (fields : Fields) : AsmM Unit := do
  forceWordBoundary
  match ← counterOperand fields.operand with
  | none => return ()
  | some word =>
    if word < (← get).currentSection.locationWord then error .operandField
    else
      modifySection (·.setLocationWord word)
      defineWordLabel fields.location

/-- Move both counters forward; the section is then placed. -/
def setOrigin (fields : Fields) : AsmM Unit := do
  forceWordBoundary
  match ← counterOperand fields.operand with
  | none => return ()
  | some word =>
    if word < (← get).currentSection.originWord then error .operandField
    else
      modifySection fun sec => { sec.setOriginWord word with placed := true }
      defineWordLabel fields.location

/-- A number of words to be reserved from the next word on. -/
def reserveCount (fields : Fields) : AsmM (Option Nat) := do
  forceWordBoundary
  defineWordLabel fields.location
  match ← absoluteOperand fields.operand with
  | none => return none
  | some words =>
    if maxReserveWords < words.toNat then
      error .fieldWidth
      return none
    return some words.toNat

def reserveWords (fields : Fields) : AsmM Unit := do
  match ← reserveCount fields with
  | none => return ()
  | some words => reserveBits (words * wordBits)

/-- Reserve words and fill them with zeros. -/
def reserveZeros (fields : Fields) : AsmM Unit := do
  match ← reserveCount fields with
  | none => return ()
  | some words => repeatTimes (emitBits wordBits 0) words

/-- How many units there are from `position` up to the next multiple of `size`. -/
def unitsToMultiple (size position : Nat) : Nat :=
  (size - position % size) % size

/-- Go on to the start of an instruction buffer, filling with instructions that do nothing or, where
no instructions are allowed, with zeros. -/
def align (fields : Fields) : AsmM Unit := do
  noOperand fields
  if (← get).currentSection.type.allowsInstructions then
    forceParcelBoundary
    let parcel := (← get).currentSection.locationParcel
    repeatTimes (emitBits parcelBits passParcel.toUInt64)
      (unitsToMultiple (instructionBufferWords * parcelsPerWord) parcel)
  else
    forceWordBoundary
    let word := (← get).currentSection.locationWord
    repeatTimes (emitBits wordBits 0) (unitsToMultiple instructionBufferWords word)
  defineWordLabel fields.location

/-- Fill with zeros up to a bit of a unit of `size` bits; the end of a unit counts as the start of
the next. -/
def reachBit (fields : Fields) (size : Nat) (current : Section → Nat) (boundary : AsmM Unit) :
    AsmM Unit := do
  ignoreLocation fields
  match ← absoluteOperand fields.operand with
  | none => return ()
  | some bit =>
    if bit.toNat = size then boundary
    else if bit.toNat < size then
      let bits := Section.bitsAhead size (current (← get).currentSection) bit.toNat
      if 0 < bits then emitBits bits 0
    else error .fieldWidth

def reachWordBit (fields : Fields) : AsmM Unit :=
  reachBit fields wordBits Section.wordBit forceWordBoundary

def reachParcelBit (fields : Fields) : AsmM Unit :=
  reachBit fields parcelBits Section.parcelBit forceParcelBoundary

end Asm

end CrayAssembler
