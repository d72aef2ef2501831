import CrayAssembler.Token.Basic

namespace CrayAssembler

inductive UnaryOp where
  | plus
  | minus
  /-- Ones complement. -/
  | complement
  /-- A mask of ones at the left of a word. -/
  | maskLeft
  /-- A mask of ones at the right of a word. -/
  | maskRight
  | complementMaskLeft
  | complementMaskRight
  | parcelAddress
  | wordAddress
deriving DecidableEq, Repr

namespace UnaryOp

/-- The unary operator that a token stands for where an operand is expected. -/
def ofOperator? : Operator → Option UnaryOp
  | .plus => some plus
  | .minus => some minus
  | .hash => some complement
  | .less => some maskLeft
  | .greater => some maskRight
  | .hashLess => some complementMaskLeft
  | .hashGreater => some complementMaskRight
  | .asParcel => some parcelAddress
  | .asWord => some wordAddress
  | _ => none

end UnaryOp

inductive BinaryOp where
  | add
  | subtract
  | multiply
  | divide
  | and
  | or
  | xor
  | shiftLeft
  | shiftRight
deriving DecidableEq, Repr

namespace BinaryOp

/-- The binary operator that a token stands for after an operand. -/
def ofOperator? : Operator → Option BinaryOp
  | .plus => some add
  | .minus => some subtract
  | .star => some multiply
  | .slash => some divide
  | .ampersand => some and
  | .bang => some or
  | .backslash => some xor
  | .less => some shiftLeft
  | .greater => some shiftRight
  | _ => none

/-- Whether the operator is of the loosest level. -/
def isAdding : BinaryOp → Bool
  | add | subtract | or | xor => true
  | multiply | divide | and | shiftLeft | shiftRight => false

end BinaryOp

inductive Expr where
  | symbol (name : Name)
  | number (text : String)
  | based (value : Word)
  | string (constant : CharConstant)
  | location (counter : Counter)
  | unary (op : UnaryOp) (operand : Expr)
  | binary (op : BinaryOp) (left right : Expr)
  /-- An expression in parentheses. -/
  | group (inner : Expr)
  /-- The address of a word of the literal pool that holds the operand. The key, which is the
  operand's text, tells the entries of the pool apart. -/
  | literal (key : String) (operand : Expr)
deriving DecidableEq, Repr

namespace Expr

/-- The unary operator at the root and its operand, parentheses aside. -/
def rootUnary? : Expr → Option (UnaryOp × Expr)
  | unary op operand => some (op, operand)
  | group inner => inner.rootUnary?
  | _ => none

/-- The leaf that a token stands for. -/
def ofToken? : Token.Kind → Option Expr
  | .name name => some (symbol name)
  | .number text => some (number text)
  | .based value => some (based value)
  | .string constant => some (string constant)
  | .location counter => some (location counter)
  | _ => none

end Expr

end CrayAssembler
