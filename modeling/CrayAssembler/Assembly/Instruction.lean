import CrayAssembler.Assembly.Emit
import CrayAssembler.InstructionSet

namespace CrayAssembler

open Matcher (Arg FieldTokens)
open InstructionSet (Part Encoding)

namespace Asm

/-- Width of the parcel address of a branch. -/
def branchAddressBits : Nat := 24

/-- The number of a register argument. -/
def registerArg (args : List Arg) (n : Nat) : Nat :=
  match args[n]? with
  | some (.register number) => number
  | _ => 0

def partValue (args : List Arg) : Part → Nat
  | .register n => registerArg args n
  | .fixed value => value

def expressionArg? (args : List Arg) (n : Nat) : Option Expr :=
  match args[n]? with
  | some (.expression expr) => some expr
  | _ => none

/-- Whether an expression is a literal, parentheses aside. -/
def isLiteral : Expr → Bool
  | .literal _ _ => true
  | .group inner => isLiteral inner
  | _ => false

/-- Evaluate an operand of an instruction. One that cannot be evaluated counts as undefined, so
that the instruction still takes its place. -/
def operandValue (expr? : Option Expr) : AsmM Evaluation := do
  let evaluation? ←
    match expr? with
    | none => pure none
    | some expr => evaluateExpr expr
  return evaluation?.getD ⟨.undefined, true, []⟩

/-- The number that goes into a field; zero for an undefined value. -/
def fieldNumber (value : Value) : Nat :=
  if value.isUndefined then 0 else value.numeric.toNat

/-- Complain of a defined value that a field of an instruction cannot hold. -/
def checkField (value : Value) : AsmM Unit :=
  if !value.isUndefined && !value.numeric.fitsField Instruction.jkmBits then error .fieldWidth
  else return ()

/-- The target of a branch as a parcel address. -/
def branchTarget (value : Value) : Value :=
  if value.addressKind = .word then
    { value with numeric := value.numeric * 4 }.withAddressKind .parcel
  else value

def emitBranch (gh : Nat) (value : Value) : AsmM Unit := do
  let target := branchTarget value
  if target.isFloat then error .valueType
  else if !target.isUndefined && !target.numeric.fitsUnsigned branchAddressBits then
    error .fieldWidth
  let address := fieldNumber target % (1 <<< branchAddressBits)
  emitAddressInstruction (Instruction.ghIjkm gh address) target true

/-- The address of a memory reference counts words. -/
def memoryAddress (value : Value) : Value :=
  if value.addressKind = .parcel then
    { value with numeric := value.numeric / 4 }.withAddressKind .word
  else value

def emitMemoryReference (g h i : Nat) (value : Value) : AsmM Unit := do
  if value.addressKind = .parcel then warn .machineInstruction
  let address := memoryAddress value
  if address.isFloat then error .valueType
  else checkField address
  emitAddressInstruction (Instruction.gHIJkm g h i (fieldNumber address)) address false

/-- Load an A register. A small known constant takes one parcel and a known negative one the
complement form; all else, and every reference ahead, takes the form with 22 bits. -/
def emitLoadA (i : Nat) (evaluation : Evaluation) : AsmM Unit := do
  let value := evaluation.value
  if value.isFloat then error .valueType
  let known := value.isConstant && !evaluation.forward
  if known && value.numeric < 64 then
    emitParcel (Instruction.ghIJk 0o022 i value.numeric.toNat)
  else if known && value.numeric.signed < 0 &&
      (~~~value.numeric).fitsUnsigned Instruction.jkmBits then
    emitAddressInstruction (Instruction.ghIJkm 0o021 i (~~~value.numeric).toNat) (.absolute 0) false
  else
    checkField value
    emitAddressInstruction (Instruction.ghIJkm 0o020 i (fieldNumber value)) value false

/-- Load an S register with a mask of ones at the left or right, which takes one parcel. -/
def emitMask (i : Nat) (right : Bool) (width : Value) : AsmM Unit := do
  if width.isUndefined then emitParcel (Instruction.ghIJk 0o042 i 0)
  else if !width.isConstant || 64 < width.numeric then
    error .fieldWidth
    emitParcel (Instruction.ghIJk 0o042 i 0)
  else if right then emitParcel (Instruction.ghIJk 0o042 i (64 - width.numeric.toNat))
  else emitParcel (Instruction.ghIJk 0o043 i width.numeric.toNat)

/-- Load an S register with a value, or with its complement when only that fits. -/
def emitLoadSValue (i : Nat) (value : Value) : AsmM Unit := do
  let direct := emitAddressInstruction (Instruction.ghIJkm 0o040 i (fieldNumber value)) value false
  if !value.isConstant then
    checkField value
    direct
  else if value.numeric.fitsUnsigned Instruction.jkmBits then direct
  else if (~~~value.numeric).fitsUnsigned Instruction.jkmBits then
    emitAddressInstruction (Instruction.ghIJkm 0o041 i (~~~value.numeric).toNat) (.absolute 0) false
  else
    error .fieldWidth
    direct

/-- The value that an S register is loaded with: a floating-point one in the machine's format. -/
def storedOrSelf (value : Value) : AsmM Value := do
  if !value.isFloat then return value
  match storedWord value with
  | .ok word => return .absolute word
  | .error kind =>
    error kind
    return value

def emitLoadS (i : Nat) (expr? : Option Expr) : AsmM Unit := do
  match expr?.bind Expr.rootUnary? with
  | some (.maskRight, inner) => emitMask i true (← operandValue (some inner)).value
  | some (.maskLeft, inner) => emitMask i false (← operandValue (some inner)).value
  | _ =>
    let evaluation ← operandValue expr?
    emitLoadSValue i (← storedOrSelf evaluation.value)

/-- Shift a register; a shift to the right is encoded by what is left of a word. -/
def emitShift (gh i : Nat) (right : Bool) (count : Value) : AsmM Unit := do
  let n := fieldNumber count
  let limit := if right then 64 else 63
  if limit < n || !count.isConstant && !count.isUndefined then error .fieldWidth
  let jk := if right then 64 - min n 64 else min n 63
  emitParcel (Instruction.ghIJk gh i jk)

def emitSetSemaphore (jk : Nat) (value : Value) : AsmM Unit := do
  let n := fieldNumber value
  if 1 < n then error .operandField
  emitParcel (Instruction.ghIJk 0o003 (if n = 1 then 7 else 6) jk)

def emitTestSemaphore (jk : Nat) (value : Value) : AsmM Unit := do
  if !value.isUndefined && value.numeric ≠ 1 then error .operandField
  emitParcel (Instruction.ghIJk 0o003 4 jk)

/-- Place the instruction that an encoding gives for its arguments. -/
def encode (encoding : Encoding) (args : List Arg) : AsmM Unit := do
  let reg := registerArg args
  match encoding with
  | .fields gh i j k =>
    emitParcel (Instruction.ghIJK gh (partValue args i) (partValue args j) (partValue args k))
  | .wide gh i jk => emitParcel (Instruction.ghIJk gh (partValue args i) (partValue args jk))
  | .constant gh ijk => emitParcel (Instruction.ghIjk gh ijk)
  | .branch gh address =>
    emitBranch gh (← operandValue (expressionArg? args address)).value
  | .memory g i address index =>
    let value ←
      match address with
      | some n => do pure (← operandValue (expressionArg? args n)).value
      | none => pure (.absolute 0)
    emitMemoryReference g ((index.map reg).getD 0) (reg i) value
  | .loadA i value =>
    let expr? := expressionArg? args value
    let evaluation ← operandValue expr?
    if expr?.any isLiteral then emitMemoryReference 0o10 0 (reg i) evaluation.value
    else emitLoadA (reg i) evaluation
  | .loadS i value =>
    let expr? := expressionArg? args value
    if expr?.any isLiteral then
      emitMemoryReference 0o12 0 (reg i) (← operandValue expr?).value
    else emitLoadS (reg i) expr?
  | .shift gh i count right =>
    emitShift gh (reg i) right (← operandValue (expressionArg? args count)).value
  | .setSemaphore jk value =>
    emitSetSemaphore (reg jk) (← operandValue (expressionArg? args value)).value
  | .testSemaphore jk value =>
    emitTestSemaphore (reg jk) (← operandValue (expressionArg? args value)).value

/-- Place an instruction that was found, at a parcel boundary. -/
def placeInstruction (location : String) (rule : InstructionSet.Rule) (args : List Arg) :
    AsmM Unit := do
  forceParcelBoundary
  defineParcelLabel location
  let agree := rule.same.all fun (first, second) =>
    registerArg args first = registerArg args second
  if agree then
    modify fun context => { context with inInstruction := true }
    encode rule.encoding args
    modify fun context => { context with inInstruction := false }
  else error .operandField

/-- Assemble a machine instruction. -/
def machineInstruction (fields : Fields) : AsmM Unit := do
  let context ← get
  let flexible := context.settings.flexible
  let result := FieldTokens.ofText fields.result flexible
  let operand := FieldTokens.ofText fields.operand flexible
  match InstructionSet.table.find result operand flexible with
  | .error .noMatch =>
    error (if result.tokens.head?.any Token.isRegister then .operandField else .resultField)
  | .error (.badExpression _) => error .syntaxError
  | .ok found =>
    if context.currentSection.type.allowsInstructions then
      placeInstruction fields.location found.handler found.args
    else error .instructionPlacement

end Asm

end CrayAssembler
