import CrayAssembler.Module.Basic

namespace CrayAssembler

namespace ObjectBlock

/-- Write whole words at places that are counted in words from a bit address on. The first that is
refused stops the writing. -/
def writePlaced (block : ObjectBlock) (bitAddress : Nat) :
    List (Nat × Word) → ObjectBlock × Option ErrorKind
  | [] => (block, none)
  | (offset, word) :: rest =>
    match block.writeBits (bitAddress + offset * wordBits) wordBits word with
    | .ok written => written.writePlaced bitAddress rest
    | .error kind => (block, some kind)

end ObjectBlock

namespace Section

/-- Where a bit address of the image lies in the object block. -/
def blockBit (sec : Section) (bitAddress : Word) : Word :=
  UInt64.ofNat (bitAddress.toNat - sec.baseWord * wordBits)

def toObject (sec : Section) (index : Nat) : Object.Block :=
  { index := UInt64.ofNat index
    name := sec.name
    type := sec.type
    residency := sec.residency
    size := UInt64.ofNat sec.size
    origin := UInt64.ofNat sec.baseWord
    image := sec.block.image.map fun image =>
      ⟨UInt64.ofNat (image.base - sec.baseWord), image.toList⟩
    relocations := sec.block.relocations.map fun entry =>
      { entry with bitAddress := sec.blockBit entry.bitAddress }
    externals := sec.block.externals.map fun entry =>
      { entry with bitAddress := sec.blockBit entry.bitAddress } }

end Section

namespace Module

/-- Place the literal pool at the end of its section. -/
def placeLiterals (module : Module) : Module × Option ErrorKind :=
  let sec := module.getSection literalsSection
  let (block, refused) := sec.block.writePlaced sec.originBits module.literals.placedWords
  let placed := { sec with block }.advance (module.literals.size * wordBits)
  (module.modifySection literalsSection fun _ => placed, refused)

/-- The block that a value is an address in. -/
def blockOf (value : Value) : Option Word :=
  value.home.map UInt64.ofNat

/-- The entry point that a symbol gives; none when it is undefined or external. -/
def entryPoint? (module : Module) (key : SymbolKey) : Option Object.EntryPoint :=
  match module.symbols.get? key with
  | none => none
  | some value =>
    if value.isUndefined || value.isExternal then none
    else some ⟨key.name, blockOf value, value.numeric, value.addressKind⟩

/-- Whether some symbol that was declared an entry point is not one. -/
def lacksEntry (module : Module) : Bool :=
  module.entries.any fun key => (module.entryPoint? key).isNone

def startPoint? (module : Module) : Option Object.StartPoint := do
  let key ← module.start
  let value ← module.symbols.get? key
  return ⟨key.name, blockOf value, value.numeric⟩

/-- The object module. Entry points that were never defined are left out. -/
def toObject (module : Module) : Object.Module :=
  { name := module.name
    absolute := module.absolute
    stackSize := UInt64.ofNat module.stackSize
    comment := module.comment
    blocks := module.sections.mapIdx fun index sec => sec.toObject index
    entries := module.entries.filterMap module.entryPoint?
    externals := module.externals.map (·.name)
    start := module.startPoint? }

/-- Names and values for the symbol table of the listing. -/
def listedSymbols (module : Module) : List (String × String) :=
  (module.symbols.toList.filter fun (key, _) => !module.symbols.isShadow key).map
    fun (key, value) => (key.qualifiedName, value.text)

end Module

end CrayAssembler
