import CrayAssembler.Diagnostic
import CrayAssembler.Expr.Basic
import CrayAssembler.Value

namespace CrayAssembler

namespace Value

/-- What the address of a value is relative to. -/
inductive Base where
  | absolute
  | inSection (id : SectionId)
  | external (index : Nat)
deriving DecidableEq, Repr

def base (value : Value) : Base :=
  match (if value.coefficient ≠ 0 then value.external else none : Option Nat) with
  | some index => .external index
  | none =>
    match (if value.isRelocatable then value.home else none : Option SectionId) with
    | some id => .inSection id
    | none => .absolute

def isAbsolute (value : Value) : Bool :=
  value.base = .absolute

/-- Express a value in units of `kind`. A plain number simply takes the kind on. -/
def convert (value : Value) (kind : AddressKind) : Value :=
  let old := value.addressKind
  let numeric :=
    if old = .value || kind = .value then value.numeric
    else if old.perWord < kind.perWord then
      value.numeric * UInt64.ofNat (kind.perWord / old.perWord)
    else value.numeric / UInt64.ofNat (old.perWord / kind.perWord)
  { value with numeric }.withAddressKind kind

/-- Negation; an external cannot be negated. -/
def negate (value : Value) : Except ErrorKind Value :=
  if value.isFloat then .ok (.float value.toDouble.neg)
  else if value.isExternal then .error .relocatableField
  else .ok { value with numeric := -value.numeric, coefficient := -value.coefficient }

/-- The number of an operand of a logical operation, which must be a plain one. -/
def bits (value : Value) : Except ErrorKind Word :=
  if value.isFloat then .error .valueType
  else if value.isAbsolute then .ok value.numeric
  else .error .relocatableField

/-- The width of a mask. -/
def maskWidth (n : Word) : Except ErrorKind Nat :=
  if n.toNat ≤ wordBits then .ok n.toNat else .error .fieldWidth

/-- The value of a unary operator on a defined value. -/
def unaryDefined (op : UnaryOp) (value : Value) : Except ErrorKind Value :=
  match op with
  | .plus => .ok value
  | .minus => value.negate
  | .complement => do return absolute (~~~(← value.bits))
  | .maskLeft => do return absolute (Word.maskLeft (← maskWidth (← value.bits)))
  | .maskRight => do return absolute (Word.maskRight (← maskWidth (← value.bits)))
  | .complementMaskLeft => do return absolute (~~~Word.maskLeft (← maskWidth (← value.bits)))
  | .complementMaskRight => do return absolute (~~~Word.maskRight (← maskWidth (← value.bits)))
  | .parcelAddress => .ok (value.convert .parcel)
  | .wordAddress => .ok (value.convert .word)

def unary (op : UnaryOp) (value : Value) : Except ErrorKind Value :=
  if value.isUndefined then .ok undefined else unaryDefined op value

/-- The value of a binary operator. -/
structure Outcome where
  value : Value
  /-- The operands are addresses of different kinds. -/
  mixedKinds : Bool
deriving DecidableEq, Repr

def Outcome.plain (value : Value) : Outcome := ⟨value, false⟩

/-- The base of a sum or difference, and how often it is contained. An external can be combined
with plain numbers only, and an address in a section with addresses of the same section. -/
def sumBase (left right : Value) (subtract : Bool) : Except ErrorKind (Base × Int64) :=
  let signed (coefficient : Int64) : Int64 := if subtract then -coefficient else coefficient
  match left.base, right.base with
  | .absolute, .absolute => .ok (.absolute, 0)
  | .external index, .absolute => .ok (.external index, left.coefficient)
  | .absolute, .external index =>
    if subtract then .error .relocatableField else .ok (.external index, right.coefficient)
  | .inSection id, .absolute => .ok (.inSection id, left.coefficient)
  | .absolute, .inSection id => .ok (.inSection id, signed right.coefficient)
  | .inSection id, .inSection other =>
    if id = other then .ok (.inSection id, left.coefficient + signed right.coefficient)
    else .error .relocatableField
  | _, _ => .error .relocatableField

/-- Sum or difference of two integers whose kinds agree, or of which one is a plain number. The
difference of two addresses in one section is a plain number, and an address in an absolute module
stays one when a number is added to it. -/
def addAligned (left right : Value) (subtract : Bool) : Except ErrorKind Value := do
  let kind := if left.addressKind = .value then right.addressKind else left.addressKind
  let numeric := if subtract then left.numeric - right.numeric else left.numeric + right.numeric
  let (base, coefficient) ← sumBase left right subtract
  match base with
  | .inSection id =>
    if coefficient = 0 then return absolute numeric
    else
      return withAddressKind
        { attributes := { relocatable := true }, home := some id, coefficient, numeric } kind
  | .external index =>
    return withAddressKind
      { attributes := { external := true }, external := some index, coefficient, numeric } kind
  | .absolute =>
    let immobile := kind ≠ .value &&
      (left.attributes.immobile || right.attributes.immobile)
    let home := if immobile then left.home.or right.home else none
    return withAddressKind { attributes := { immobile }, home, numeric } kind

/-- Sum or difference. The right operand is converted to the kind of the left one. -/
def add (left right : Value) (subtract : Bool) : Except ErrorKind Outcome := do
  if left.isFloat || right.isFloat then
    if !left.isAbsolute || !right.isAbsolute then throw .relocatableField
    let combine := if subtract then Double.sub else Double.add
    return .plain (float (combine left.toDouble right.toDouble))
  let mixed := left.addressKind ≠ .value && right.addressKind ≠ .value &&
    right.addressKind ≠ left.addressKind
  let aligned := if mixed then right.convert left.addressKind else right
  return ⟨← addAligned left aligned subtract, mixed⟩

/-- The kind of a product or quotient, and whether the operands are both addresses. -/
def productKind (left right : AddressKind) : AddressKind × Bool :=
  match left, right with
  | .value, kind | kind, .value => (kind, false)
  | _, _ => (.value, true)

def divide (left right : Value) : Except ErrorKind Outcome := do
  let (kind, mixed) := productKind left.addressKind right.addressKind
  if !left.isAbsolute || !right.isAbsolute then throw .relocatableField
  if right.numeric = 0 then throw .expression
  let quotient := (left.numeric.toInt64 / right.numeric.toInt64).toUInt64
  return ⟨(absolute quotient).withAddressKind kind, mixed⟩

/-- The product of an address with a number contains the base of its section that many times. -/
def scaled (address : Value) (numeric factor : Word) (kind : AddressKind) : Value :=
  let coefficient := address.coefficient * factor.toInt64
  { address with numeric, coefficient }.withAddressKind kind

def multiply (left right : Value) : Except ErrorKind Outcome :=
  let (kind, mixed) := productKind left.addressKind right.addressKind
  let product := left.numeric * right.numeric
  match left.base, right.base with
  | .absolute, .absolute => .ok ⟨(absolute product).withAddressKind kind, mixed⟩
  | .inSection _, .absolute => .ok ⟨left.scaled product right.numeric kind, mixed⟩
  | .absolute, .inSection _ => .ok ⟨right.scaled product left.numeric kind, mixed⟩
  | _, _ => .error .relocatableField

/-- Product or quotient of floating-point numbers. -/
def multiplyFloats (left right : Value) (isQuotient : Bool) : Except ErrorKind Value := do
  if !left.isAbsolute || !right.isAbsolute then throw .relocatableField
  if isQuotient then
    if right.toDouble.isZero then throw .expression
    return float (Double.div left.toDouble right.toDouble)
  return float (Double.mul left.toDouble right.toDouble)

/-- Shift to the left or to the right; a count beyond the size of a word leaves nothing. -/
def shift (number count : Word) (right : Bool) : Word :=
  if wordBits ≤ count.toNat then 0
  else if right then number >>> count
  else number <<< count

def logic (left right : Value) (combine : Word → Word → Word) : Except ErrorKind Outcome := do
  if left.isFloat || right.isFloat then throw .valueType
  return .plain (absolute (combine (← left.bits) (← right.bits)))

/-- The value of a binary operator on defined values. -/
def binaryDefined (op : BinaryOp) (left right : Value) : Except ErrorKind Outcome :=
  match op with
  | .add => add left right false
  | .subtract => add left right true
  | .multiply =>
    if left.isFloat || right.isFloat then (multiplyFloats left right false).map .plain
    else multiply left right
  | .divide =>
    if left.isFloat || right.isFloat then (multiplyFloats left right true).map .plain
    else divide left right
  | .and => logic left right (· &&& ·)
  | .or => logic left right (· ||| ·)
  | .xor => logic left right (· ^^^ ·)
  | .shiftLeft => logic left right (shift · · false)
  | .shiftRight => logic left right (shift · · true)

def binary (op : BinaryOp) (left right : Value) : Except ErrorKind Outcome :=
  if left.isUndefined || right.isUndefined then .ok (.plain undefined)
  else binaryDefined op left right

end Value

end CrayAssembler
