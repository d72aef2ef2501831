import CrayAssembler.Assembly.Emit

namespace CrayAssembler

namespace Asm

/-- Do something where data is allowed, which it is not in sections that are only reserved. -/
def whereData (action : AsmM Unit) : AsmM Unit := do
  if (← get).currentSection.type.allowsImage then action else error .instructionPlacement

/-- A value as it is stored. One that the machine's format cannot hold becomes zero. -/
def storable (value : Value) : AsmM Value := do
  if !value.isFloat then return value
  match storedWord value with
  | .ok word => return .absolute word
  | .error kind =>
    error kind
    return .absolute 0

/-- The value of an evaluation; one that failed gives an undefined value. -/
def valueOrUndefined (evaluation? : Option Evaluation) : Value :=
  (evaluation?.map (·.value)).getD .undefined

def emitExpression (expr : Expr) : AsmM Unit := do
  let value ← storable (valueOrUndefined (← evaluateExpr expr))
  emitField wordBits value

/-- A word for each item; one that cannot be read still takes its place. -/
def emitItem (item : String) : AsmM Unit := do
  match ← parseOperand item with
  | some expr => emitExpression expr
  | none => emitWord 0

/-- As `emitItem`, but a character constant takes as many words as it needs. -/
def emitDataItem (item : String) : AsmM Unit := do
  match ← parseOperand item with
  | some (.string constant) => constant.pack.forM emitWord
  | some expr => emitExpression expr
  | none => emitWord 0

/-- Items from the next word on. -/
def emitItems (emit : String → AsmM Unit) (fields : Fields) : AsmM Unit :=
  whereData do
    forceWordBoundary
    defineWordLabel fields.location
    (Fields.subfields fields.operand).forM emit

def constants (fields : Fields) : AsmM Unit := emitItems emitItem fields

def data (fields : Fields) : AsmM Unit := emitItems emitDataItem fields

/-- The label of fields, which need not start at a word or parcel boundary. -/
def defineFieldLabel (location : String) : AsmM Unit := do
  let sec := (← get).currentSection
  if sec.wordBit = 0 then defineWordLabel location
  else if sec.parcelBit = 0 then defineParcelLabel location
  else if !location.isEmpty then warn .badLocationSymbol

/-- A field of the given width. A plain number that does not fit is cut with a warning. -/
def emitVariable (width : Nat) (expr : String) : AsmM Unit := do
  let value ← storable (valueOrUndefined (← evaluateOperand expr))
  if value.isConstant && !value.numeric.fitsField width then warn .truncation
  if 0 < width then emitField width value

/-- One item of the form `width/value`. -/
def emitVariableItem (item : String) : AsmM Unit := do
  match Text.cut '/' item.toList with
  | none => error .dataItem
  | some (width, expr) =>
    match ← absoluteOperand (String.ofList width) with
    | none => return ()
    | some width =>
      if wordBits < width.toNat then error .fieldWidth
      else if expr.isEmpty then error .dataItem
      else emitVariable width.toNat (String.ofList expr)

/-- Fields one after another, without regard to word boundaries. -/
def variableFields (fields : Fields) : AsmM Unit :=
  whereData do
    defineFieldLabel fields.location
    (Fields.subfields fields.operand).forM emitVariableItem

end Asm

end CrayAssembler
