import CrayAssembler.Assembly.Operand

namespace CrayAssembler

namespace Asm

def beginCapture (capture : Capture) : AsmM Unit :=
  modify fun context => { context with capture := some capture }

/-- Begin a macro definition. -/
def beginDefinition (fields : Fields) : AsmM Unit := do
  ignoreLocation fields
  noOperand fields
  beginCapture .prototype

/-- An end of what was never begun. -/
def strayEnd (_ : Fields) : AsmM Unit := error .illegalNesting

/-- Begin a group once its number of statements is known. A count that cannot be used is zero. -/
def captureGroup (name count : String) (statements : Option Nat) : AsmM Unit := do
  if statements.isNone && name.isEmpty then error .locationField
  else
    let count := ((← absoluteOperand count).map (·.toNat)).getD 0
    if statements ≠ some 0 then beginCapture (.group name count statements [])

/-- Begin a group to be duplicated. Without a number of statements it needs a name to end at. -/
def beginGroup (fields : Fields) : AsmM Unit := do
  let name := fields.location
  if !name.isEmpty && !Fields.isIdentifier name then error .locationField
  else
    match Fields.subfields fields.operand with
    | [count] => captureGroup name count none
    | [count, statements] =>
      match ← absoluteOperand statements with
      | some n => captureGroup name count (some n.toNat)
      | none => return ()
    | _ => error .operandField

end Asm

end CrayAssembler
