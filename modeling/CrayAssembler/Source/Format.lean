namespace CrayAssembler

inductive SourceFormat where
  /-- A semicolon outside a character string starts a comment. -/
  | new
  /-- Columns past 72 are ignored. -/
  | old
deriving DecidableEq, Repr, Inhabited

namespace SourceFormat

def oldWidth : Nat := 72

def ofOperand? : String → Option SourceFormat
  | "NEW" => some new
  | "OLD" => some old
  | _ => none

end SourceFormat

inductive NumeralBase where
  | decimal
  /-- Octal in machine instructions, decimal elsewhere. -/
  | mixed
  | octal
deriving DecidableEq, Repr, Inhabited

namespace NumeralBase

def radix (base : NumeralBase) (inInstruction : Bool) : Nat :=
  match base with
  | decimal => 10
  | mixed => if inInstruction then 8 else 10
  | octal => 8

def ofOperand? : String → Option NumeralBase
  | "D" => some decimal
  | "M" => some mixed
  | "O" => some octal
  | _ => none

end NumeralBase

end CrayAssembler
