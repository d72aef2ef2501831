import CrayAssembler.Assembly.Context
import CrayAssembler.Expr.Eval
import CrayAssembler.Expr.Parser
import CrayAssembler.Machine.FloatWord
import CrayAssembler.Token.Lexer

namespace CrayAssembler

namespace Asm

/-- The symbol that an unqualified name refers to. -/
def resolve (context : Context) (name : String) : SymbolKey :=
  context.currentModule.symbols.resolve ⟨none, name⟩ context.qualifier.current

/-- Look a symbol up; one that is not known is entered as undefined. In pass 2 a symbol is ahead
until its definition has been seen again. -/
def symbol (name : Name) : AsmM SymbolRef := do
  let context ← get
  let table := context.currentModule.symbols
  let key := table.resolve name context.qualifier.current
  let (value, symbols) := table.reference key
  modifyModule fun module => { module with symbols }
  let forward :=
    match context.pass with
    | .one => value.isUndefined
    | .two => !value.isExternal && !value.attributes.definedInPassTwo
  return ⟨value, forward⟩

def counter (counter : Counter) : AsmM Value := do
  let context ← get
  let sec := context.currentSection
  let address (kind : AddressKind) (n : Nat) : Value :=
    .address kind context.sectionId.current (UInt64.ofNat n) context.relocatable
  match counter with
  | .location => return address .word sec.locationWord
  | .parcel => return address .parcel sec.locationParcel
  | .origin => return address .word sec.originWord
  | .absolute => return .absolute (UInt64.ofNat sec.locationWord)
  | .wordBit => return .absolute (UInt64.ofNat sec.wordBit)
  | .parcelBit => return .absolute (UInt64.ofNat sec.parcelBit)

/-- A number as it is stored: floating-point values in the format of the machine. -/
def storedWord (value : Value) : Except ErrorKind Word :=
  if value.isFloat then
    match FloatWord.ofDouble value.toDouble with
    | .ok word => .ok word
    | .error _ => .error .valueType
  else .ok value.numeric

/-- The words that a value takes in the literal pool, and whether it is undefined. -/
def literalWords (value : Value) : Except ErrorKind (List Word × Bool) := do
  if value.isUndefined then return ([0], true)
  if value.isRelocatable || value.isExternal then throw .relocatableField
  return ([← storedWord value], false)

/-- Enter a literal into the pool and tell its address. An undefined literal keeps its place in
pass 1 and is a fault in pass 2. -/
def placeLiteral (key : String) (words : List Word) (undefined : Bool) :
    AsmM (Except ErrorKind Value) := do
  let context ← get
  let module := context.currentModule
  let (offset, literals) := module.literals.intern key words
  modifyModule fun module => { module with literals }
  if undefined && context.pass = .two then return .error .undefinedSymbol
  let base := (module.getSection literalsSection).originOffset
  let place := Value.address .word literalsSection (UInt64.ofNat (base + offset))
    (!module.absolute)
  return .ok { place with attributes := { place.attributes with literal := true } }

def literal (key : String) (operand : LiteralOperand AsmM) : AsmM (Except ErrorKind Value) := do
  match operand with
  | .characters constant => placeLiteral key constant.pack false
  | .computed evaluation =>
    match ← evaluation with
    | .error kind => return .error kind
    | .ok found =>
      match literalWords found.value with
      | .error kind => return .error kind
      | .ok (words, undefined) => placeLiteral key words undefined

/-- Expressions see the current module, section, qualifier and numeral base. -/
def surroundings : Surroundings AsmM where
  symbol := symbol
  counter := counter
  literal := literal
  radix := do
    let context ← get
    return context.base.current.radix context.inInstruction

/-- Evaluate an expression and register its faults. An undefined result is registered and is still
a result. -/
def evaluateExpr (expr : Expr) : AsmM (Option Evaluation) := do
  match ← expr.evaluate surroundings with
  | .error kind =>
    error kind
    return none
  | .ok evaluation =>
    evaluation.warnings.forM warn
    if evaluation.value.isUndefined then error .undefinedSymbol
    return some evaluation

/-- Read an operand as one expression. -/
def parseOperand (text : String) : AsmM (Option Expr) := do
  let tokens := tokenize text.toList (← get).settings.flexible
  if tokens.any Token.isError then
    error .syntaxError
    return none
  match Expr.parseComplete tokens text.toList with
  | .ok expr => return some expr
  | .error _ =>
    error .syntaxError
    return none

def evaluateOperand (text : String) : AsmM (Option Evaluation) := do
  match ← parseOperand text with
  | none => return none
  | some expr => evaluateExpr expr

/-- The number of a value that must be a known plain integer, or why it is not one. Nothing more is
registered for an undefined value. -/
def plainInteger (value : Value) : Except (Option ErrorKind) Word :=
  if value.isUndefined then .error none
  else if value.isRelocatable || value.isExternal then .error (some .relocatableField)
  else if value.isFloat then .error (some .valueType)
  else .ok value.numeric

/-- Evaluate an operand that must be a known plain integer: a count, a width or a position. -/
def absoluteOperand (text : String) : AsmM (Option Word) := do
  match ← evaluateOperand text with
  | none => return none
  | some evaluation =>
    match plainInteger evaluation.value with
    | .ok n => return some n
    | .error none => return none
    | .error (some kind) =>
      error kind
      return none

/-- Define the symbol that a location field names; an empty one names none. -/
def defineSymbol (location : String) (value : Value) (redefinable : Bool) : AsmM Unit := do
  if location.isEmpty then return ()
  if !Fields.isIdentifier location then
    error .locationField
    return ()
  let context ← get
  let key : SymbolKey := ⟨context.qualifier.current, location⟩
  match context.currentModule.symbols.define key value redefinable context.pass with
  | .ok symbols => modifyModule fun module => { module with symbols }
  | .error kind => error kind

/-- Show an address beside the statement and define its label as that address. -/
def defineLabel (location : String) (kind : AddressKind) (n : Nat) : AsmM Unit := do
  let context ← get
  let value := Value.address kind context.sectionId.current (UInt64.ofNat n) context.relocatable
  modifyStatement fun statement =>
    { statement with address := some (Listing.addressText value.numeric kind) }
  defineSymbol location value false

/-- Define a label as the current word address. -/
def defineWordLabel (location : String) : AsmM Unit := do
  defineLabel location .word (← get).currentSection.locationWord

/-- Define a label as the current parcel address. -/
def defineParcelLabel (location : String) : AsmM Unit := do
  defineLabel location .parcel (← get).currentSection.locationParcel

end Asm

end CrayAssembler
