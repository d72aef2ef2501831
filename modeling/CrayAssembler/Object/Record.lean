import CrayAssembler.Machine.Characters
import CrayAssembler.Object.Basic
import CrayAssembler.Object.Dataset
import CrayAssembler.Text.Blank

namespace CrayAssembler

namespace Object

inductive RecordType where
  | programDescription
  | text
  | relocation
  | externalTable
  | names
  | start
deriving DecidableEq, Repr

namespace RecordType

def all : List RecordType :=
  [programDescription, text, relocation, externalTable, names, start]

def number : RecordType → Nat
  | programDescription => 1
  | text => 2
  | relocation => 3
  | externalTable => 4
  | names => 5
  | start => 6

def ofNumber? (n : Nat) : Option RecordType :=
  all.find? fun type => type.number = n

def name : RecordType → String
  | programDescription => "PDT"
  | text => "TXT"
  | relocation => "REL"
  | externalTable => "XTB"
  | names => "XNS"
  | start => "START"

end RecordType

/-- A record with its first word. -/
def record (type : RecordType) (body : List Word) : Dataset.Item :=
  .record ((UInt64.ofNat type.number <<< 56 ||| UInt64.ofNat body.length) :: body)

/-- Stands for the absence of a block. -/
def noBlock : Word := 0xffffffffffffffff

def extendedBit : Word := 0x8000000000000000

def parcelBit : Word := 0x4000000000000000

def indexMask : Word := 0x3fffffff

/-- A number of things. -/
def countWord {α : Type} (items : List α) : Word :=
  UInt64.ofNat items.length

def textWords (text : String) : List Word :=
  let chars := Text.bytes text.toList
  countWord chars :: Characters.pack chars chars.length .leftZero

def blockWord (block : Option Word) : Word :=
  block.getD noBlock

/-- The kind, index and width of an entry of a relocation or external table. -/
def entryWord (kind : EntryKind) (parcel : Bool) (index : Word) (fieldLength : UInt32) : Word :=
  (index &&& indexMask) <<< 32 ||| fieldLength.toUInt64 |||
    (if kind = .extended then extendedBit else 0) ||| (if parcel then parcelBit else 0)

/-- The index, type and residency of a block. -/
def Block.attributeWord (block : Block) : Word :=
  block.index <<< 32 ||| UInt64.ofNat block.type.number <<< 8 |||
    UInt64.ofNat block.residency.number

def Block.description (block : Block) : List Word :=
  textWords block.name ++ [block.attributeWord, block.size, block.origin]

def Relocation.words (entry : Relocation) : List Word :=
  [entryWord entry.kind entry.parcel entry.targetBlock entry.fieldLength, entry.bitAddress]

def ExternalReference.words (entry : ExternalReference) : List Word :=
  [entryWord entry.kind entry.parcel entry.externalIndex entry.fieldLength, entry.bitAddress]

def EntryPoint.words (entry : EntryPoint) : List Word :=
  textWords entry.name ++ [blockWord entry.block, entry.value, UInt64.ofNat entry.kind.code]

namespace Module

def descriptionWords (module : Module) : List Word :=
  textWords module.name ++ [if module.absolute then 1 else 0, module.stackSize] ++
    textWords module.comment ++
    countWord module.blocks :: module.blocks.flatMap Block.description ++
    countWord module.entries :: module.entries.flatMap fun entry => textWords entry.name

def imageRecords (module : Module) : List Dataset.Item :=
  module.blocks.flatMap fun block =>
    match block.image with
    | none => []
    | some image =>
      [record .text (block.index :: image.loadWord :: countWord image.words :: image.words)]

/-- Tables that are not empty, one for each block. -/
def tableRecords {α : Type} (module : Module) (type : RecordType) (table : Block → List α)
    (words : α → List Word) : List Dataset.Item :=
  (module.blocks.filter fun block => !(table block).isEmpty).map fun block =>
    record type (block.index :: countWord (table block) :: (table block).flatMap words)

def nameWords (module : Module) : List Word :=
  countWord module.externals :: module.externals.flatMap textWords ++
    countWord module.entries :: module.entries.flatMap EntryPoint.words

def startRecords (module : Module) : List Dataset.Item :=
  match module.start with
  | none => []
  | some start => [record .start (textWords start.name ++ [blockWord start.block, start.value])]

/-- A module as a file of a dataset. -/
def items (module : Module) : List Dataset.Item :=
  [record .programDescription module.descriptionWords] ++ module.imageRecords ++
    module.tableRecords .relocation Block.relocations Relocation.words ++
    module.tableRecords .externalTable Block.externals ExternalReference.words ++
    [record .names module.nameWords] ++ module.startRecords ++ [.endOfFile]

end Module

/-- Modules as a dataset. -/
def items (modules : List Module) : List Dataset.Item :=
  modules.flatMap Module.items ++ [.endOfData]

/-- The bytes of an object file. -/
def write (modules : List Module) : List UInt8 :=
  Dataset.bytes (Dataset.Writer.putAll {} (items modules)).items

theorem write_eq (modules : List Module) : write modules = Dataset.bytes (items modules) := by
  unfold write
  rw [Dataset.Writer.putAll_eq]
  rfl

end Object

end CrayAssembler
