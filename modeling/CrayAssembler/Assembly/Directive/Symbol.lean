import CrayAssembler.Assembly.Operand

namespace CrayAssembler

namespace Asm

/-- Show a value beside the statement and define its symbol. -/
def defineShown (location : String) (value : Value) (redefinable : Bool) : AsmM Unit := do
  modifyStatement fun statement => { statement with value := some value.text }
  defineSymbol location value redefinable

/-- Define a symbol as the value of an expression. -/
def equate (redefinable : Bool) (fields : Fields) : AsmM Unit := do
  if fields.location.isEmpty then error .locationField
  else
    match ← evaluateOperand fields.operand with
    | none => return ()
    | some evaluation => defineShown fields.location evaluation.value redefinable

/-- Define a symbol as the length of a micro. -/
def defineMicroSize (fields : Fields) : AsmM Unit := do
  if fields.location.isEmpty then error .locationField
  else if !Fields.isIdentifier fields.operand then error .operandField
  else
    match (← get).findMicro? fields.operand with
    | some text =>
      defineShown fields.location (.absolute (UInt64.ofNat text.length)) true
    | none =>
      warn .microSubstitution
      defineShown fields.location (.absolute 0) true

/-- The names that an operand lists; none, with an error, when some is not an identifier. -/
def nameList (fields : Fields) : AsmM (Option (List String)) := do
  let names := Fields.subfields fields.operand
  if names.isEmpty || !names.all Fields.isIdentifier then
    error .operandField
    return none
  return some names

def declareExternal (name : String) : AsmM Unit := do
  let context ← get
  let module := context.currentModule
  let key : SymbolKey := ⟨context.qualifier.current, name⟩
  match module.symbols.makeExternal key (module.externalIndex key) with
  | .ok symbols => modifyModule fun module => { module.addExternal key with symbols }
  | .error kind => error kind

def declareExternals (fields : Fields) : AsmM Unit := do
  ignoreLocation fields
  match ← nameList fields with
  | none => return ()
  | some names =>
    if (← get).currentModule.absolute then warn .externalDeclaration
    names.forM declareExternal

def declareEntry (name : String) : AsmM Unit := do
  let key : SymbolKey := ⟨(← get).qualifier.current, name⟩
  modifyModule fun module =>
    { module.addEntry key with symbols := module.symbols.markEntry key }

def declareEntries (fields : Fields) : AsmM Unit := do
  ignoreLocation fields
  match ← nameList fields with
  | none => return ()
  | some names => names.forM declareEntry

def putMicro (name : String) (text : String) : AsmM Unit :=
  modifyModule fun module => { module with micros := module.micros.insert name text }

/-- An operand that may be missing or empty; `none` when it is there and cannot be used. -/
def optionalNumber (part : Option String) (default : Nat) : AsmM (Option Nat) := do
  match part.filter (!·.isEmpty) with
  | none => return some default
  | some text => return (← absoluteOperand text).map (·.toNat)

/-- Define a micro as a part of a text, given by the number of its characters and the place of the
first, which counts from one. -/
def selectMicro (name : String) (text : List Char) (parts : List String) : AsmM Unit := do
  match ← optionalNumber parts[1]? text.length with
  | none => return ()
  | some count =>
    match ← optionalNumber parts[2]? 1 with
    | none => return ()
    | some start =>
      if start = 0 || 3 < parts.length then error .operandField
      else putMicro name (String.ofList ((text.drop (start - 1)).take count))

/-- Define a micro, or remove it when there is no operand. -/
def defineMicro (fields : Fields) : AsmM Unit := do
  let name := fields.location
  let parts := Fields.subfields fields.operand
  if !Fields.isIdentifier name then error .locationField
  else
    match parts with
    | [] => modifyModule fun module => { module with micros := module.micros.erase name }
    | first :: _ =>
      match Fields.unquote first.toList with
      | none => error .operandField
      | some text => selectMicro name text parts

/-- A number filled with zeros after its sign to a width; `none` when it is longer. -/
def zeroFill? (text : String) (width : Nat) : Option String :=
  if width < text.length then none
  else
    match text.toList with
    | '-' :: digits => some ("-" ++ Text.padLeft '0' (width - 1) (String.ofList digits))
    | _ => some (Text.padLeft '0' width text)

/-- Define a micro as the digits of a number. A number too long for the width stays whole and is a
fault. -/
def defineNumericMicro (render : Word → String) (fields : Fields) : AsmM Unit := do
  let name := fields.location
  if !Fields.isIdentifier name then error .locationField
  else
    match Fields.subfields fields.operand with
    | expr :: rest =>
      if 1 < rest.length then error .operandField
      else
        match ← evaluateOperand expr with
        | none => return ()
        | some evaluation =>
          let value := evaluation.value
          if value.isRelocatable || value.isExternal then error .relocatableField
          else
            let text := render value.numeric
            match rest.head? with
            | none => putMicro name text
            | some part =>
              match ← absoluteOperand part with
              | none => return ()
              | some width =>
                match zeroFill? text width.toNat with
                | some filled => putMicro name filled
                | none =>
                  error .fieldWidth
                  putMicro name text
    | [] => error .operandField

/-- Decimal digits of a signed number. -/
def signedDecimal (word : Word) : String :=
  let n := word.signed
  if n < 0 then "-" ++ Text.decimal n.natAbs else Text.decimal n.natAbs

def defineDecimalMicro (fields : Fields) : AsmM Unit :=
  defineNumericMicro signedDecimal fields

def defineOctalMicro (fields : Fields) : AsmM Unit :=
  defineNumericMicro (fun word => Text.octal 1 word.toNat) fields

/-- Make the location field another name of an operation. -/
def defineSynonym (fields : Fields) : AsmM Unit := do
  let new := fields.location
  let old := fields.operand
  if !Fields.isIdentifier new then error .locationField
  else if old.isEmpty then error .operandField
  else
    let target := ((← get).findSynonym? old).getD old
    if target ≠ new then
      modifyModule fun module => { module with synonyms := module.synonyms.insert new target }

end Asm

end CrayAssembler
