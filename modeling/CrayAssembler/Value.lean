import CrayAssembler.Double.Shortest
import CrayAssembler.Machine.Word

namespace CrayAssembler

/-- A section of a module, by its place in the module. -/
abbrev SectionId := Nat

/-- What is known of a value, or of the symbol that holds it. -/
structure Attributes where
  /-- The symbol may be defined again. -/
  redefinable : Bool := false
  wordAddress : Bool := false
  parcelAddress : Bool := false
  byteAddress : Bool := false
  /-- The address of an entry of the literal pool. -/
  literal : Bool := false
  /-- An address in a section of a relocatable module. -/
  relocatable : Bool := false
  /-- An address in a section of an absolute module. -/
  immobile : Bool := false
  /-- Refers to a symbol of another module. -/
  external : Bool := false
  /-- The symbol is an entry point of its module. -/
  entry : Bool := false
  /-- The symbol was mentioned and is not defined yet. -/
  undefined : Bool := false
  /-- The symbol was defined in pass 2. -/
  definedInPassTwo : Bool := false
deriving DecidableEq, Repr, Inhabited

namespace Attributes

/-- Without the attributes that belong to a symbol and not to its value. -/
def ofValue (attributes : Attributes) : Attributes :=
  { attributes with redefinable := false, entry := false, definedInPassTwo := false }

end Attributes

inductive ValueType where
  | integer
  | float
deriving DecidableEq, Repr, Inhabited

/-- The unit in which a value counts, if it is an address. -/
inductive AddressKind where
  | value
  | parcel
  | word
  | byte
deriving DecidableEq, Repr, Inhabited

namespace AddressKind

/-- Number of these units in a word. -/
def perWord : AddressKind → Nat
  | value | word => 1
  | parcel => 4
  | byte => 8

/-- The number that stands for the kind in object files. -/
def code : AddressKind → Nat
  | value => 0
  | parcel => 1
  | word => 2
  | byte => 3

def ofCode? : Nat → Option AddressKind
  | 0 => some value
  | 1 => some parcel
  | 2 => some word
  | 3 => some byte
  | _ => none

end AddressKind

structure Value where
  kind : ValueType := .integer
  attributes : Attributes := {}
  /-- The section that an address belongs to. -/
  home : Option SectionId := none
  /-- Place in the list of externals of the module. -/
  external : Option Nat := none
  /-- How many times the value contains the base address of its section or external. -/
  coefficient : Int64 := 0
  /-- The number, or the bits of a floating-point value. -/
  numeric : Word := 0
deriving DecidableEq, Repr, Inhabited

namespace Value

def absolute (n : Word) : Value :=
  { numeric := n }

def float (x : Double) : Value :=
  { kind := .float, numeric := x.bits }

def undefined : Value :=
  { attributes := { undefined := true } }

/-- Set the address kind, replacing any other. -/
def withAddressKind (value : Value) (kind : AddressKind) : Value :=
  { value with attributes := { value.attributes with
      wordAddress := kind = .word
      parcelAddress := kind = .parcel
      byteAddress := kind = .byte } }

/-- An address in a section of a relocatable or absolute module. -/
def address (kind : AddressKind) (id : SectionId) (n : Word) (relocatable : Bool) : Value :=
  withAddressKind
    { attributes := { relocatable := relocatable, immobile := !relocatable }
      home := some id
      coefficient := 1
      numeric := n } kind

def ofExternal (index : Nat) : Value :=
  { attributes := { external := true }, external := some index, coefficient := 1 }

def addressKind (value : Value) : AddressKind :=
  if value.attributes.parcelAddress then .parcel
  else if value.attributes.wordAddress then .word
  else if value.attributes.byteAddress then .byte
  else .value

def isUndefined (value : Value) : Bool :=
  value.attributes.undefined

def isRelocatable (value : Value) : Bool :=
  value.attributes.relocatable && value.coefficient ≠ 0

def isExternal (value : Value) : Bool :=
  value.attributes.external

def isFloat (value : Value) : Bool :=
  value.kind = .float

/-- A plain number: not an address in a section, not external, defined. -/
def isConstant (value : Value) : Bool :=
  value.home.isNone && !value.isExternal && !value.isUndefined && value.kind = .integer

def toDouble (value : Value) : Double :=
  match value.kind with
  | .float => ⟨value.numeric⟩
  | .integer => Double.ofInt (Word.signed value.numeric)

/-- Equal up to the attributes that belong to symbols. -/
def same (left right : Value) : Bool :=
  { left with attributes := left.attributes.ofValue } =
    { right with attributes := right.attributes.ofValue }

/-- Text of a value: the number in octal, a letter for the unit, `+` when it is relocatable, and
the external it refers to. -/
def text (value : Value) : String :=
  if value.isUndefined then "undefined"
  else
    let number :=
      match value.kind with
      | .float => value.toDouble.text
      | .integer => Text.octal 1 value.numeric.toNat
    let unit :=
      match value.addressKind with
      | .parcel => "p"
      | .word => "w"
      | .byte => "b"
      | .value => ""
    let mark := if value.isRelocatable then "+" else ""
    let reference :=
      match value.external with
      | some index => " x" ++ Text.decimal index
      | none => ""
    number ++ unit ++ mark ++ reference

end Value

end CrayAssembler
