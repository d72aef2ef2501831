import CrayAssembler.Object.Basic
import CrayAssembler.Text.Quoted

namespace CrayAssembler

namespace Object

def EntryKind.shortName : EntryKind → String
  | standard => "std"
  | extended => "ext"

def addressKindName : AddressKind → String
  | .value => "Value"
  | .parcel => "Parcel"
  | .word => "Word"
  | .byte => "Byte"

def parcelMark (parcel : Bool) : String :=
  if parcel then " parcel" else ""

def Image.dump (image : Image) : List String :=
  image.words.mapIdx fun i word =>
    let address := image.loadWord + UInt64.ofNat i
    "    " ++ Text.octal 8 address.toNat ++ " " ++ Text.octal 22 word.toNat

/-- An entry of a table; `target` says what is added to the field. -/
def dumpEntry (table target : String) (kind : EntryKind) (bitAddress : Word)
    (fieldLength : UInt32) (index : Word) (parcel : Bool) : String :=
  "    " ++ table ++ " " ++ kind.shortName ++ " bit " ++ Text.decimal bitAddress.toNat ++ " len " ++
    Text.decimal fieldLength.toNat ++ " " ++ target ++ " " ++ Text.decimal index.toNat ++
    parcelMark parcel

def Block.dump (block : Block) : List String :=
  ["  block " ++ Text.decimal block.index.toNat ++ " " ++ Text.quoted block.name ++ " " ++
      block.type.keyword ++ " " ++ block.residency.keyword ++ " origin " ++
      Text.octal 1 block.origin.toNat ++ " size " ++ Text.octal 1 block.size.toNat] ++
    (block.image.map Image.dump).getD [] ++
    (block.relocations.map fun entry =>
      dumpEntry "rel" "block" entry.kind entry.bitAddress entry.fieldLength entry.targetBlock
        entry.parcel) ++
    block.externals.map fun entry =>
      dumpEntry "ext" "external" entry.kind entry.bitAddress entry.fieldLength entry.externalIndex
        entry.parcel

def EntryPoint.dump (entry : EntryPoint) : String :=
  let block := (entry.block.map fun index => Text.decimal index.toNat).getD "-"
  "  entry " ++ entry.name ++ " block " ++ block ++ " value " ++ Text.octal 1 entry.value.toNat ++
    " " ++ addressKindName entry.kind

/-- The lines that describe a module. -/
def Module.dump (module : Module) : List String :=
  ["module " ++ module.name ++ (if module.absolute then " (absolute)" else "") ++ " stack " ++
      Text.decimal module.stackSize.toNat] ++
    (if module.comment.isEmpty then [] else ["  comment " ++ Text.quoted module.comment]) ++
    module.blocks.flatMap Block.dump ++
    (module.externals.mapIdx fun i name => "  external " ++ Text.decimal i ++ " " ++ name) ++
    module.entries.map EntryPoint.dump ++
    module.start.toList.map fun start =>
      "  start " ++ start.name ++ " value " ++ Text.octal 1 start.value.toNat

def dump (modules : List Module) : String :=
  String.join ((modules.flatMap Module.dump).map (· ++ "\n"))

end Object

end CrayAssembler
