import CrayAssembler.Object.Record

namespace CrayAssembler

namespace Object

inductive ReadFault where
  | notWholeWords
  | endOfDataInFile
  | endOfFileWithoutModule
  | recordPastEnd
  | badControlWord
  | missingEndOfData
  | recordTooShort
  | implausibleCount
  | invalidText
  | badBlockAttributes
  | badAddressKind
  | entryListsDisagree
  | unknownRecordType
  | nestedModule
  | noBlock (index : Word)
  | outsideModule (type : RecordType)
deriving DecidableEq, Repr

def ReadFault.message : ReadFault → String
  | notWholeWords => "length is not a whole number of words"
  | endOfDataInFile => "end of data inside a file"
  | endOfFileWithoutModule => "end of file without a module"
  | recordPastEnd => "record runs past the end of the data"
  | badControlWord => "bad control word"
  | missingEndOfData => "missing end of data"
  | recordTooShort => "record is too short"
  | implausibleCount => "implausible count"
  | invalidText => "string is not valid text"
  | badBlockAttributes => "bad block attributes"
  | badAddressKind => "bad address kind"
  | entryListsDisagree => "entry point lists disagree"
  | unknownRecordType => "unknown record type"
  | nestedModule => "PDT record inside a module"
  | noBlock index => "no block " ++ Text.decimal index.toNat
  | outsideModule type => type.name ++ " record outside a module"

structure ReadError where
  /-- Place of a word in the file. -/
  position : Nat
  fault : ReadFault
deriving DecidableEq, Repr

def ReadError.message (error : ReadError) : String :=
  "bad object file at word " ++ Text.decimal error.position ++ ": " ++ error.fault.message

/-- What is left of a record. -/
structure Cursor where
  rest : List Word
  /-- Place of the next word in the file. -/
  position : Nat
  /-- Number of words of the whole record. -/
  recordLength : Nat
deriving DecidableEq, Repr

abbrev ReadM := StateT Cursor (Except ReadError)

namespace Read

def fail {α : Type} (fault : ReadFault) : ReadM α := do
  throw ⟨(← get).position, fault⟩

/-- Take the next `n` words. -/
def takeWords (n : Nat) : ReadM (List Word) := do
  let cursor ← get
  if cursor.rest.length < n then fail .recordTooShort
  else
    set { cursor with rest := cursor.rest.drop n, position := cursor.position + n }
    return cursor.rest.take n

def word : ReadM Word := do
  let cursor ← get
  match cursor.rest with
  | [] => fail .recordTooShort
  | first :: rest =>
    set { cursor with rest, position := cursor.position + 1 }
    return first

/-- A number of things, which cannot be more than the bytes of the record. -/
def count : ReadM Nat := do
  let n := (← word).toNat
  if n ≤ (← get).recordLength * 8 then return n else fail .implausibleCount

def text : ReadM String := do
  let length ← count
  let packed ← takeWords ((length + 7) / 8)
  let bytes := (packed.flatMap Word.bytes).take length
  match Text.ofBytes? bytes with
  | some text => return text
  | none => fail .invalidText

/-- Read the same kind of thing a number of times. -/
def many {α : Type} (read : ReadM α) : Nat → ReadM (List α)
  | 0 => return []
  | n + 1 => do
    let first ← read
    return first :: (← many read n)

def counted {α : Type} (read : ReadM α) : ReadM (List α) := do
  many read (← count)

def block? : ReadM (Option Word) := do
  let index ← word
  return if index = Object.noBlock then none else some index

/-- The parts of an entry of a table. -/
structure Entry where
  kind : EntryKind
  parcel : Bool
  index : Word
  fieldLength : UInt32
  bitAddress : Word

def entry : ReadM Entry := do
  let head ← word
  let bitAddress ← word
  return {
    kind := if head &&& extendedBit ≠ 0 then .extended else .standard
    parcel := head &&& parcelBit ≠ 0
    index := head >>> 32 &&& indexMask
    fieldLength := head.toUInt32
    bitAddress }

def relocation : ReadM Relocation := do
  let e ← entry
  return ⟨e.kind, e.index, e.bitAddress, e.fieldLength, e.parcel⟩

def externalReference : ReadM ExternalReference := do
  let e ← entry
  return ⟨e.kind, e.index, e.bitAddress, e.fieldLength, e.parcel⟩

def blockDescription : ReadM Block := do
  let name ← text
  let attributes ← word
  match SectionType.ofNumber? ((attributes >>> 8).toNat % 256),
      Residency.ofNumber? (attributes.toNat % 256) with
  | some type, some residency =>
    let size ← word
    let origin ← word
    return {
      index := attributes >>> 32
      name, type, residency, size, origin
      image := none
      relocations := []
      externals := [] }
  | _, _ => fail .badBlockAttributes

def entryPoint : ReadM EntryPoint := do
  let name ← text
  let block ← block?
  let value ← word
  match AddressKind.ofCode? (← word).toNat with
  | some kind => return ⟨name, block, value, kind⟩
  | none => fail .badAddressKind

/-- A module as described, and the number of its entry points. -/
def description : ReadM (Module × Nat) := do
  let name ← text
  let absolute := (← word) &&& 1 ≠ 0
  let stackSize ← word
  let comment ← text
  let blocks ← counted blockDescription
  let entryNames ← counted text
  return ({
    name, absolute, stackSize, comment, blocks
    entries := []
    externals := []
    start := none }, entryNames.length)

/-- Change the first block with an index. -/
def modifyBlock (module : Module) (index : Word) (change : Block → Block) : ReadM Module :=
  match module.blocks.findIdx? (·.index = index) with
  | some place => return { module with blocks := module.blocks.modify place change }
  | none => fail (.noBlock index)

def image (module : Module) : ReadM Module := do
  let index ← word
  let loadWord ← word
  let words ← takeWords (← count)
  modifyBlock module index fun block => { block with image := some ⟨loadWord, words⟩ }

def relocations (module : Module) : ReadM Module := do
  let index ← word
  let relocations ← counted relocation
  modifyBlock module index fun block => { block with relocations }

def externals (module : Module) : ReadM Module := do
  let index ← word
  let externals ← counted externalReference
  modifyBlock module index fun block => { block with externals }

def names (module : Module) (entryCount : Nat) : ReadM Module := do
  let externals ← counted text
  let n ← count
  if n ≠ entryCount then fail .entryListsDisagree
  else
    let entries ← many entryPoint n
    return { module with
      externals := module.externals ++ externals
      entries := module.entries ++ entries }

def start (module : Module) : ReadM Module := do
  let name ← text
  let block ← block?
  let value ← word
  return { module with start := some ⟨name, block, value⟩ }

/-- What has been read of a file. -/
structure Progress where
  modules : List Module := []
  current : Option Module := none
  /-- Number of entry points that the last description announced. -/
  entryCount : Nat := 0
deriving DecidableEq, Repr

/-- A record that belongs to the current module. -/
def part (type : RecordType) (module : Module) (entryCount : Nat) : ReadM Module :=
  match type with
  | .programDescription => return module
  | .text => image module
  | .relocation => relocations module
  | .externalTable => externals module
  | .names => names module entryCount
  | .start => start module

def recordBody (progress : Progress) (type : RecordType) : ReadM Progress := do
  if type = .programDescription then
    let (module, entryCount) ← description
    if progress.current.isSome then fail .nestedModule
    else return { progress with current := some module, entryCount }
  else
    match progress.current with
    | none => fail (.outsideModule type)
    | some module =>
      return { progress with current := some (← part type module progress.entryCount) }

def record (progress : Progress) : ReadM Progress := do
  match RecordType.ofNumber? ((← word) >>> 56).toNat with
  | some type => recordBody progress type
  | none => fail .unknownRecordType

/-- Take one item of a dataset into account. The end of the data is where the items stop, and tells
nothing more. -/
def item (progress : Progress) (located : Dataset.Located Dataset.Item) :
    Except ReadError Progress :=
  match located.value with
  | .record words =>
    ((record progress).run ⟨words, located.position + 1, words.length⟩).map (·.1)
  | .endOfFile =>
    match progress.current with
    | some module =>
      .ok { progress with modules := progress.modules ++ [module], current := none }
    | none => .error ⟨located.position, .endOfFileWithoutModule⟩
  | .endOfData => .ok progress

/-- The modules of a dataset, when it stops as it should. -/
def finish (progress : Progress) (stop : Dataset.Located Dataset.Stop) :
    Except ReadError (List Module) :=
  match stop.value with
  | .endOfData =>
    if progress.current.isSome then .error ⟨stop.position, .endOfDataInFile⟩
    else .ok progress.modules
  | .missingEndOfData => .error ⟨stop.position, .missingEndOfData⟩
  | .badControlWord => .error ⟨stop.position, .badControlWord⟩
  | .recordPastEnd => .error ⟨stop.position, .recordPastEnd⟩

end Read

/-- The modules that an object file holds. -/
def read (bytes : List UInt8) : Except ReadError (List Module) := do
  let (words, left) := Word.wordsOfBytes bytes
  if !left.isEmpty then throw ⟨words.length, .notWholeWords⟩
  let (items, stop) := Dataset.divide words
  let progress ← items.foldlM Read.item {}
  Read.finish progress stop

end Object

end CrayAssembler
