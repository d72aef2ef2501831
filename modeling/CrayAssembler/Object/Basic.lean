import CrayAssembler.Machine.Word
import CrayAssembler.Value

namespace CrayAssembler

inductive SectionType where
  | mixed
  | code
  | data
  | stack
  | common
  | dynamic
  | taskCom
  | none
deriving DecidableEq, Repr, Inhabited

namespace SectionType

def all : List SectionType :=
  [mixed, code, data, stack, common, dynamic, taskCom, none]

def keyword : SectionType → String
  | mixed => "MIXED"
  | code => "CODE"
  | data => "DATA"
  | stack => "STACK"
  | common => "COMMON"
  | dynamic => "DYNAMIC"
  | taskCom => "TASKCOM"
  | none => "NONE"

/-- The type that a statement can ask for by its keyword. -/
def ofKeyword? (word : String) : Option SectionType :=
  (all.filter (· ≠ none)).find? fun type => type.keyword = word

def allowsInstructions (type : SectionType) : Bool :=
  type = mixed || type = code

/-- Whether the section has contents before the program runs. -/
def allowsImage (type : SectionType) : Bool :=
  type ≠ stack && type ≠ dynamic

/-- The number that stands for the type in object files. -/
def number : SectionType → Nat
  | mixed => 0
  | code => 1
  | data => 2
  | stack => 3
  | common => 4
  | dynamic => 5
  | taskCom => 6
  | none => 7

def ofNumber? (n : Nat) : Option SectionType :=
  all.find? fun type => type.number = n

end SectionType

/-- The memory that a section is loaded into. -/
inductive Residency where
  | cm
  | em
  | lm
  | none
deriving DecidableEq, Repr, Inhabited

namespace Residency

def all : List Residency := [cm, em, lm, none]

def keyword : Residency → String
  | cm => "CM"
  | em => "EM"
  | lm => "LM"
  | none => "NONE"

/-- The residency that a statement can ask for by its keyword. -/
def ofKeyword? (word : String) : Option Residency :=
  (all.filter (· ≠ none)).find? fun residency => residency.keyword = word

/-- The number that stands for the residency in object files. -/
def number : Residency → Nat
  | cm => 0
  | em => 1
  | lm => 2
  | none => 3

def ofNumber? (n : Nat) : Option Residency :=
  all.find? fun residency => residency.number = n

end Residency

namespace Object

inductive EntryKind where
  /-- The address field of a two-parcel instruction. -/
  | standard
  /-- A field of any width. -/
  | extended
deriving DecidableEq, Repr, Inhabited

/-- A field of an image to which the load address of a block is added. -/
structure Relocation where
  kind : EntryKind
  targetBlock : Word
  /-- Place of the instruction or field in the image. -/
  bitAddress : Word
  fieldLength : UInt32
  /-- The field counts parcels. -/
  parcel : Bool
deriving DecidableEq, Repr, Inhabited

/-- A field of an image that is filled with the address of an external. -/
structure ExternalReference where
  kind : EntryKind
  externalIndex : Word
  bitAddress : Word
  fieldLength : UInt32
  parcel : Bool
deriving DecidableEq, Repr, Inhabited

structure Image where
  /-- Place of the first word in the block. -/
  loadWord : Word
  words : List Word
deriving DecidableEq, Repr

structure Block where
  index : Word
  name : String
  type : SectionType
  residency : Residency
  size : Word
  /-- Word address of the start of the block. -/
  origin : Word
  image : Option Image
  relocations : List Relocation
  externals : List ExternalReference
deriving DecidableEq, Repr

structure EntryPoint where
  name : String
  /-- The block that the address lies in, if it is one. -/
  block : Option Word
  value : Word
  kind : AddressKind
deriving DecidableEq, Repr

structure StartPoint where
  name : String
  block : Option Word
  value : Word
deriving DecidableEq, Repr

structure Module where
  name : String
  absolute : Bool
  stackSize : Word
  comment : String
  blocks : List Block
  entries : List EntryPoint
  externals : List String
  start : Option StartPoint
deriving DecidableEq, Repr

end Object

end CrayAssembler
