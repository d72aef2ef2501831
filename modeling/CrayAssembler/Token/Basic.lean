import CrayAssembler.CharConstant
import CrayAssembler.Register
import CrayAssembler.Token.Lexeme
import CrayAssembler.Token.Operator

namespace CrayAssembler

/-- The counters that an expression can name. -/
inductive Counter where
  /-- The location counter as a word address. -/
  | location
  /-- The location counter as a plain number. -/
  | absolute
  /-- The bit position within the current parcel. -/
  | parcelBit
  /-- The origin counter as a word address. -/
  | origin
  /-- The location counter as a parcel address. -/
  | parcel
  /-- The bit position within the current word. -/
  | wordBit
deriving DecidableEq, Repr

namespace Counter

def ofSuffix? : List Char → Option Counter
  | ['A'] => some absolute
  | ['B'] => some parcelBit
  | ['O'] => some origin
  | ['P'] => some parcel
  | ['W'] => some wordBit
  | _ => none

end Counter

/-- A name as written; the qualifier is `some ""` in `//name`. -/
structure Name where
  qualifier : Option String
  name : String
deriving DecidableEq, Repr

inductive Token.Kind where
  | register (register : Register)
  | name (name : Name)
  /-- A number whose radix depends on the statement; its text is kept. -/
  | number (text : String)
  | based (value : Word)
  | string (constant : CharConstant)
  | location (counter : Counter)
  | operator (operator : Operator)
  | leftParen
  | rightParen
  | comma
  | error (message : String)
deriving DecidableEq, Repr

structure Token where
  kind : Token.Kind
  span : Span
deriving DecidableEq, Repr

namespace Token

/-- After such a token an operand is expected. -/
def Kind.opensOperand : Kind → Bool
  | operator _ | leftParen | comma => true
  | _ => false

def isRegister (token : Token) : Bool :=
  match token.kind with
  | .register _ => true
  | _ => false

def isError (token : Token) : Bool :=
  match token.kind with
  | .error _ => true
  | _ => false

end Token

end CrayAssembler
