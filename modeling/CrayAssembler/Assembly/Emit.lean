import CrayAssembler.Assembly.Operand
import CrayAssembler.Machine.Instruction

namespace CrayAssembler

namespace Asm

/-- The one-parcel instruction that does nothing. -/
def passParcel : Parcel := 0o001000

/-- Place the low `width` bits of a word at the origin counter. -/
def emitBits (width : Nat) (bits : Word) : AsmM Unit := do
  let context ← get
  let sec := context.currentSection
  let written :=
    if context.pass = .two && sec.type.allowsImage then
      sec.block.writeBits sec.originBits width bits
    else .ok sec.block
  match written with
  | .ok block => modifySection fun sec => { sec with block }.advance width
  | .error kind =>
    modifySection fun sec => sec.advance width
    error kind

/-- Move the counters on without writing anything. -/
def reserveBits (bits : Nat) : AsmM Unit :=
  modifySection (·.advance bits)

/-- Do something a number of times. -/
def repeatTimes (action : AsmM Unit) : Nat → AsmM Unit
  | 0 => return ()
  | n + 1 => do
    action
    repeatTimes action n

/-- Show generated code beside the statement. -/
def showGenerated (text : String) : AsmM Unit := do
  if (← get).pass = .two then
    modifyStatement fun statement => { statement with generated := statement.generated ++ [text] }

def emitParcel (parcel : Parcel) : AsmM Unit := do
  emitBits parcelBits parcel.toUInt64
  showGenerated (Instruction.render parcel)

def addExternal (entry : Object.ExternalReference) : AsmM Unit :=
  modifySection fun sec => { sec with block := sec.block.addExternal entry }

def addRelocation (entry : Object.Relocation) : AsmM Unit :=
  modifySection fun sec => { sec with block := sec.block.addRelocation entry }

/-- Record that the loader has to add an address to a field that starts at the origin counter. It
can add the base of one section or external, once. -/
def recordReference (kind : Object.EntryKind) (fieldLength : Nat) (value : Value) (parcel : Bool) :
    AsmM Unit := do
  let context ← get
  let bitAddress := UInt64.ofNat context.currentSection.originBits
  let fieldLength := UInt32.ofNat fieldLength
  let writing := context.pass = .two
  if value.isUndefined then return ()
  if value.isExternal then
    if value.coefficient ≠ 1 || value.home.isSome then error .relocatableField
    else
      match value.external with
      | some index =>
        if writing then
          addExternal ⟨kind, UInt64.ofNat index, bitAddress, fieldLength, parcel⟩
      | none => return ()
  else if value.isRelocatable then
    if value.coefficient ≠ 1 then error .relocatableField
    else
      match value.home with
      | some id =>
        if writing then
          addRelocation ⟨kind, UInt64.ofNat id, bitAddress, fieldLength, parcel⟩
      | none => return ()

/-- Place a two-parcel instruction whose low 22 bits hold an address. -/
def emitAddressInstruction (instruction : ParcelPair) (address : Value) (parcel : Bool) :
    AsmM Unit := do
  recordReference .standard Instruction.jkmBits address parcel
  emitBits (2 * parcelBits) instruction.toUInt64
  let high := (instruction >>> 16).toUInt16
  let low := instruction.toUInt16
  showGenerated (Instruction.render high ++ " " ++ Text.octal 6 low.toNat)

/-- Octal digits of a whole word. -/
def wordText (word : Word) : String :=
  Text.octal 22 word.toNat

/-- Place a field of data that holds a value. -/
def emitField (width : Nat) (value : Value) : AsmM Unit := do
  recordReference .extended width value false
  let bits := if value.isUndefined then 0 else value.numeric
  emitBits width bits
  showGenerated (if width = wordBits then wordText bits
    else Text.octal 1 (bits &&& Word.maskRight width).toNat)

/-- Place a word of data that needs no relocation. -/
def emitWord (word : Word) : AsmM Unit := do
  emitBits wordBits word
  showGenerated (wordText word)

/-- Fill with zeros up to the next parcel boundary. -/
def forceParcelBoundary : AsmM Unit := do
  let bit := (← get).currentSection.parcelBit
  if bit ≠ 0 then emitBits (parcelBits - bit) 0

/-- Fill with zeros up to the next word boundary. -/
def forceWordBoundary : AsmM Unit := do
  let bit := (← get).currentSection.wordBit
  if bit ≠ 0 then emitBits (wordBits - bit) 0

end Asm

end CrayAssembler
