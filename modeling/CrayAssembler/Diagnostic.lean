namespace CrayAssembler

inductive ErrorKind where
  | dataItem
  | doubleDefinition
  | illegalNesting
  | tooManyEntries
  | instructionPlacement
  | locationField
  | relocatableField
  | operandField
  | programmer
  | resultField
  | syntaxError
  | valueType
  | undefinedSymbol
  | fieldWidth
  | expression
deriving DecidableEq, Repr, Inhabited

namespace ErrorKind

/-- All errors in the order in which they are listed. -/
def all : List ErrorKind :=
  [dataItem, doubleDefinition, illegalNesting, tooManyEntries, instructionPlacement, locationField,
    relocatableField, operandField, programmer, resultField, syntaxError, valueType,
    undefinedSymbol, fieldWidth, expression]

def indicator : ErrorKind → Char
  | dataItem => 'C'
  | doubleDefinition => 'D'
  | illegalNesting => 'N'
  | tooManyEntries => 'M'
  | instructionPlacement => 'I'
  | locationField => 'L'
  | relocatableField => 'R'
  | operandField => 'O'
  | programmer => 'P'
  | resultField => 'F'
  | syntaxError => 'S'
  | valueType => 'T'
  | undefinedSymbol => 'U'
  | fieldWidth => 'W'
  | expression => 'E'

def ofIndicator? (c : Char) : Option ErrorKind :=
  all.find? fun kind => kind.indicator = c

def message : ErrorKind → String
  | dataItem => "invalid data item"
  | doubleDefinition => "symbol or name is defined more than once"
  | illegalNesting => "illegal nesting or nesting too deep"
  | tooManyEntries => "too many entries for an internal table"
  | instructionPlacement => "instruction or data is not allowed in this section"
  | locationField => "invalid location field"
  | relocatableField => "invalid use of a relocatable or external value"
  | operandField => "invalid operand field"
  | programmer => "error raised by the program"
  | resultField => "unrecognised or unimplemented result field"
  | syntaxError => "syntax error"
  | valueType => "operation is not valid for this type of value"
  | undefinedSymbol => "undefined symbol"
  | fieldWidth => "value does not fit in its field"
  | expression => "invalid expression"

end ErrorKind

inductive WarningKind where
  | programmer
  | ignoredLocationSymbol
  | badLocationSymbol
  | expressionElement
  | machineInstruction
  | truncation
  | undefinedLocationSymbol
  | microSubstitution
  | addressCounter
  | externalDeclaration
  | redefinedMacro
deriving DecidableEq, Repr, Inhabited

namespace WarningKind

/-- All warnings in the order in which they are listed. -/
def all : List WarningKind :=
  [programmer, ignoredLocationSymbol, badLocationSymbol, expressionElement, machineInstruction,
    truncation, undefinedLocationSymbol, microSubstitution, addressCounter, externalDeclaration,
    redefinedMacro]

def indicator : WarningKind → Char
  | programmer => 'p'
  | ignoredLocationSymbol => 'l'
  | badLocationSymbol => 'b'
  | expressionElement => 'e'
  | machineInstruction => 'm'
  | truncation => 't'
  | undefinedLocationSymbol => 'u'
  | microSubstitution => 'q'
  | addressCounter => 'a'
  | externalDeclaration => 'x'
  | redefinedMacro => 'r'

def ofIndicator? (c : Char) : Option WarningKind :=
  all.find? fun kind => kind.indicator = c

def message : WarningKind → String
  | programmer => "warning raised by the program"
  | ignoredLocationSymbol => "location field symbol is ignored"
  | badLocationSymbol => "location field symbol is not valid here"
  | expressionElement => "mixed address kinds in expression"
  | machineInstruction => "questionable machine instruction"
  | truncation => "source line truncated"
  | undefinedLocationSymbol => "location field symbol is undefined"
  | microSubstitution => "unknown micro"
  | addressCounter => "address counter is not on the expected boundary"
  | externalDeclaration => "external declared in an absolute module"
  | redefinedMacro => "macro redefined"

end WarningKind

inductive Diagnostic where
  | error (kind : ErrorKind)
  | warning (kind : WarningKind)
  /-- The statement closed the current module; not a fault. -/
  | moduleEnd
deriving DecidableEq, Repr

namespace Diagnostic

/-- All diagnostics in the order in which they are listed. -/
def all : List Diagnostic :=
  ErrorKind.all.map error ++ WarningKind.all.map warning ++ [moduleEnd]

def indicator : Diagnostic → Char
  | error kind => kind.indicator
  | warning kind => kind.indicator
  | moduleEnd => ' '

def message : Diagnostic → String
  | error kind => kind.message
  | warning kind => kind.message
  | moduleEnd => "end of module"

def isError : Diagnostic → Bool
  | error _ => true
  | _ => false

def isWarning : Diagnostic → Bool
  | warning _ => true
  | _ => false

/-- One line about a diagnostic. -/
def text : Diagnostic → String
  | error kind => s!"error {kind.indicator}: {kind.message}"
  | warning kind => s!"warning {kind.indicator}: {kind.message}"
  | moduleEnd => moduleEnd.message

end Diagnostic

/-- A set of diagnostics, its members in the order of `Diagnostic.all`. -/
structure DiagnosticSet where
  toList : List Diagnostic
deriving DecidableEq, Repr, Inhabited

namespace DiagnosticSet

def empty : DiagnosticSet := ⟨[]⟩

def contains (set : DiagnosticSet) (d : Diagnostic) : Bool :=
  set.toList.contains d

def insert (set : DiagnosticSet) (d : Diagnostic) : DiagnosticSet :=
  ⟨Diagnostic.all.filter fun x => x == d || set.contains x⟩

def union (set other : DiagnosticSet) : DiagnosticSet :=
  ⟨Diagnostic.all.filter fun x => set.contains x || other.contains x⟩

def isEmpty (set : DiagnosticSet) : Bool :=
  set.toList.isEmpty

def hasErrors (set : DiagnosticSet) : Bool :=
  set.toList.any Diagnostic.isError

def errorCount (set : DiagnosticSet) : Nat :=
  set.toList.countP Diagnostic.isError

def warningCount (set : DiagnosticSet) : Nat :=
  set.toList.countP Diagnostic.isWarning

/-- Letters of the errors and warnings, as shown in the margin of the listing. -/
def indicators (set : DiagnosticSet) : String :=
  String.ofList ((set.toList.filter (· ≠ .moduleEnd)).map Diagnostic.indicator)

end DiagnosticSet

/-- Counts of errors and warnings, and the diagnostics seen at all. -/
structure Tally where
  errors : Nat := 0
  warnings : Nat := 0
  seen : DiagnosticSet := .empty
deriving DecidableEq, Repr, Inhabited

namespace Tally

/-- Count the diagnostics of one statement. -/
def add (tally : Tally) (statement : DiagnosticSet) : Tally :=
  { errors := tally.errors + statement.errorCount
    warnings := tally.warnings + statement.warningCount
    seen := tally.seen.union statement }

/-- An assembly fails on errors, and on warnings when these are fatal. -/
def failed (tally : Tally) (warningsFatal : Bool) : Bool :=
  0 < tally.errors || warningsFatal && 0 < tally.warnings

end Tally

end CrayAssembler
