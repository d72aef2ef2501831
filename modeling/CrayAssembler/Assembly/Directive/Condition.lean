import CrayAssembler.Assembly.Operand

namespace CrayAssembler

inductive Relation where
  | eq
  | ne
  | lt
  | le
  | gt
  | ge
deriving DecidableEq, Repr

namespace Relation

def ofOperand? : String → Option Relation
  | "EQ" => some eq
  | "NE" => some ne
  | "LT" => some lt
  | "LE" => some le
  | "GT" => some gt
  | "GE" => some ge
  | _ => none

def holds : Relation → Ordering → Bool
  | eq, order => order = .eq
  | ne, order => order ≠ .eq
  | lt, order => order = .lt
  | le, order => order ≠ .gt
  | gt, order => order = .gt
  | ge, order => order ≠ .lt

end Relation

namespace Asm

/-- What is passed over after a condition that failed. -/
def skipAfter (location : String) (count : Option Nat) : Option Skip :=
  match count with
  | some 0 => none
  | some n => some (.statements n)
  | none => some (if location.isEmpty then .statements 1 else .untilLocation location)

/-- Check the location field and the count of a condition, and act on its outcome. -/
def conclude (fields : Fields) (condition : Bool) (part : Option String) : AsmM Unit := do
  let location := fields.location
  if !location.isEmpty && !Fields.isIdentifier location then error .locationField
  else
    match part.filter (!·.isEmpty) with
    | none =>
      if !condition then modify fun context => { context with skip := skipAfter location none }
    | some text =>
      match ← absoluteOperand text with
      | none => return ()
      | some n =>
        if !condition then
          modify fun context => { context with skip := skipAfter location (some n.toNat) }

/-- A symbol counts as defined once its definition has been seen in the current pass. -/
def definedInPass (value : Value) (pass : Pass) : Bool :=
  match pass with
  | .one => !value.isUndefined
  | .two => value.isExternal || value.attributes.definedInPassTwo

/-- Whether a name has an attribute; none when there is no such attribute. -/
def attributeHolds? (context : Context) (property name : String) : Option Bool :=
  let value := context.currentModule.symbols.get? (resolve context name)
  let defined := value.filter fun value => definedInPass value context.pass
  match property with
  | "DEF" => some defined.isSome
  | "SET" => some (defined.any (·.attributes.redefinable))
  | "ABS" => some (defined.any fun value => !value.isRelocatable && !value.isExternal)
  | "REL" => some (defined.any Value.isRelocatable)
  | "EXT" => some (value.any Value.isExternal)
  | "PA" => some (defined.any (·.addressKind = .parcel))
  | "WA" => some (defined.any (·.addressKind = .word))
  | "VAL" => some (defined.any (·.addressKind = .value))
  | "MIC" => some (context.findMicro? name).isSome
  | "MAC" => some (context.findMacro? name).isSome
  | _ => none

/-- Whether an attribute holds, or does not hold when `#` stands before it. -/
def attributeCondition? (context : Context) (property name : String) : Option Bool :=
  match property.toList with
  | '#' :: rest => (attributeHolds? context (String.ofList rest) name).map (!·)
  | _ => attributeHolds? context property name

/-- A condition on an attribute of a name. -/
def ifAttribute (fields : Fields) : AsmM Unit := do
  match Fields.subfields fields.operand with
  | property :: name :: rest =>
    if 1 < rest.length || !Fields.isIdentifier name then error .operandField
    else
      match attributeCondition? (← get) property name with
      | some holds => conclude fields holds rest.head?
      | none => error .operandField
  | _ => error .operandField

/-- A text to be compared: a quoted string, or the text itself. -/
def comparedText (text : String) : String :=
  ((Fields.unquote text.toList).map String.ofList).getD text

/-- A condition on two texts. -/
def ifText (fields : Fields) : AsmM Unit := do
  match Fields.subfields fields.operand with
  | left :: relation :: right :: rest =>
    if 1 < rest.length then error .operandField
    else
      match Relation.ofOperand? relation with
      | none => error .operandField
      | some relation =>
        let order := compare (comparedText left) (comparedText right)
        conclude fields (relation.holds order) rest.head?
  | _ => error .operandField

/-- The order of two values, or why they have none. -/
def compareDefined (left right : Value) : Except ErrorKind (Option Ordering) :=
  if left.isExternal || right.isExternal || (left.home.isSome && left.home ≠ right.home) then
    .error .relocatableField
  else if left.isFloat || right.isFloat then .ok (left.toDouble.compare? right.toDouble)
  else .ok (some (compare left.numeric.signed right.numeric.signed))

/-- Compare two expressions. A symbol that is not defined yet makes them incomparable in both
passes, although pass 2 knows its value. -/
def compareValues (left right : String) : AsmM (Option Ordering) := do
  match ← evaluateOperand left with
  | none => return none
  | some left =>
    match ← evaluateOperand right with
    | none => return none
    | some right =>
      if left.forward || right.forward then
        error .undefinedSymbol
        return none
      if left.value.isUndefined || right.value.isUndefined then return none
      match compareDefined left.value right.value with
      | .ok order => return order
      | .error kind =>
        error kind
        return none

/-- Whether a relation holds between two expressions; none when it is not a relation. -/
def expressionCondition (left relation right : String) : AsmM (Option Bool) := do
  match Relation.ofOperand? relation with
  | none =>
    error .operandField
    return none
  | some relation => return some ((← compareValues left right).any relation.holds)

/-- A condition on two expressions. -/
def ifExpression (fields : Fields) : AsmM Unit := do
  match Fields.subfields fields.operand with
  | left :: relation :: right :: rest =>
    if 1 < rest.length then error .operandField
    else
      match ← expressionCondition left relation right with
      | some holds => conclude fields holds rest.head?
      | none => return ()
  | _ => error .operandField

/-- The end of the part that was assembled; what follows is passed over. -/
def otherwise (fields : Fields) : AsmM Unit := do
  if fields.location.isEmpty then error .locationField
  else
    noOperand fields
    modify fun context => { context with skip := some (.untilLocation fields.location) }

def endCondition (fields : Fields) : AsmM Unit := do
  if fields.location.isEmpty then error .locationField
  noOperand fields

/-- Pass over statements without a condition. -/
def skipStatements (fields : Fields) : AsmM Unit := do
  let parts := Fields.subfields fields.operand
  if 1 < parts.length then error .operandField
  else conclude fields false parts.head?

/-- An error of the program when a relation holds. -/
def errorIf (fields : Fields) : AsmM Unit := do
  ignoreLocation fields
  match Fields.subfields fields.operand with
  | [left, relation, right] =>
    if (← expressionCondition left relation right) = some true then error .programmer
  | _ => error .operandField

/-- The diagnostic whose letter the location field gives; without one, an error of the program. -/
def raise (fields : Fields) : AsmM Unit := do
  noOperand fields
  match fields.location.toList with
  | [] => error .programmer
  | [c] =>
    match ErrorKind.ofIndicator? c, WarningKind.ofIndicator? c with
    | some kind, _ => error kind
    | none, some kind => warn kind
    | none, none => error .locationField
  | _ => error .locationField

end Asm

end CrayAssembler
