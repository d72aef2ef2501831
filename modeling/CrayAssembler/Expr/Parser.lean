import CrayAssembler.Expr.Attempt
import CrayAssembler.Expr.Basic

namespace CrayAssembler

namespace Expr

/-- Source text of some tokens that follow each other, without the blanks around it. -/
def textOf (text : List Char) (run : List Token) : String :=
  match run.head?, run.getLast? with
  | some first, some last =>
    if first.span.start ≤ last.span.stop then
      String.ofList (Text.trim (Text.slice text first.span.start last.span.stop))
    else ""
  | _, _ => ""

/-- The operator of a unary expression whose operator is this token. -/
def prefixOperator? : Token.Kind → Option UnaryOp
  | .operator operator => UnaryOp.ofOperator? operator
  | _ => none

/-- The binary operator of the looser or of the tighter level that a token stands for. -/
def binaryOperator? (adding : Bool) : Token.Kind → Option BinaryOp
  | .operator operator => (BinaryOp.ofOperator? operator).filter (·.isAdding == adding)
  | _ => none

/-- A token of one kind only. -/
def sign (kind : Token.Kind) (tokens : List Token) : Attempt Unit tokens.length :=
  .select (fun other => if other = kind then some () else none) tokens

/-- A binary operator. Before a register it belongs to the pattern of an instruction and not to the
expression. -/
def binaryOperator (adding : Bool) (tokens : List Token) : Attempt BinaryOp tokens.length :=
  (Attempt.select (binaryOperator? adding) tokens).unlessBefore Token.isRegister

section Levels

variable {bound : Nat}

/-- An operand, or an expression in parentheses. -/
def atom (nested : Parser bound Expr) (tokens : List Token) (fewer : tokens.length < bound + 1) :
    Attempt Expr tokens.length :=
  let parenthesised := (sign .leftParen tokens).andThen fun _ inside shorter =>
    (nested inside (by omega)).andThen fun inner closing _ =>
      (sign .rightParen closing).map fun _ => group inner
  (Attempt.select ofToken? tokens).orElse parenthesised

/-- An atom with any number of unary operators before it. The key of a literal is the text of its
operand. -/
def prefixed (text : List Char) (nested : Parser bound Expr) (tokens : List Token)
    (fewer : tokens.length < bound + 1) : Attempt Expr tokens.length :=
  let pooled := (sign (.operator .equals) tokens).andThen fun _ inside shorter =>
    (prefixed text nested inside (by omega)).mapWith fun operand rest =>
      literal (textOf text (inside.take (inside.length - rest.length))) operand
  let applied := (Attempt.select prefixOperator? tokens).andThen fun op inside shorter =>
    (prefixed text nested inside (by omega)).map (unary op)
  pooled.orElse (applied.orElse (atom nested tokens fewer))
termination_by tokens.length

/-- A binary operator of one level and the operand behind it. -/
def followed (adding : Bool) (operand : Parser bound Expr) : Parser bound (BinaryOp × Expr) :=
  fun tokens _ => (binaryOperator adding tokens).andThen fun op rest shorter =>
    (operand rest (by omega)).map (op, ·)

/-- A left operand with an operator and the right operand. -/
def extended (left : Expr) : BinaryOp × Expr → Expr
  | (op, right) => binary op left right

/-- Operands with binary operators of one level between them. -/
def chain (adding : Bool) (operand : Parser bound Expr) : Parser bound Expr := fun tokens fewer =>
  (operand tokens fewer).foldl ((followed adding operand).narrow fewer) extended

def term (text : List Char) (nested : Parser bound Expr) : Parser (bound + 1) Expr :=
  chain false (prefixed text nested)

def sum (text : List Char) (nested : Parser bound Expr) : Parser (bound + 1) Expr :=
  chain true (term text nested)

end Levels

/-- The expression at the start of the tokens. -/
def expression (text : List Char) (tokens : List Token) : Attempt Expr tokens.length :=
  let nested : Parser tokens.length Expr := fun inside _ => expression text inside
  sum text nested tokens (Nat.lt_succ_self _)
termination_by tokens.length

/-- Why tokens are no expression. -/
inductive ParseError where
  | expected
  | register (span : Span)
  | badToken (message : String) (span : Span)
  | unexpected (text : String) (span : Span)
deriving DecidableEq, Repr

namespace ParseError

def message : ParseError → String
  | expected => "expression expected"
  | register _ => "a register cannot appear in an expression"
  | badToken message _ => message
  | unexpected text _ => s!"unexpected '{text}'"

def span? : ParseError → Option Span
  | expected => none
  | register span | badToken _ span | unexpected _ span => some span

/-- The error for tokens of which the first cannot follow. -/
def ofStuck (text : List Char) : List Token → ParseError
  | [] => expected
  | token :: _ =>
    match token.kind with
    | .error message => badToken message token.span
    | .register _ => register token.span
    | _ =>
      unexpected (String.ofList (Text.slice text token.span.start token.span.stop)) token.span

end ParseError

/-- The longest expression at the start of `tokens`, and how many of them it takes. The tokens come
from `text`. -/
def parseLongest (tokens : List Token) (text : List Char) : Except ParseError (Expr × Nat) :=
  let attempt := expression text tokens
  match attempt.taken with
  | none => .error (.ofStuck text attempt.furthest)
  | some (expr, rest) => .ok (expr, tokens.length - rest.1.length)

/-- All of `tokens` as one expression. What is left after the expression is a refusal as well. -/
def parseComplete (tokens : List Token) (text : List Char) : Except ParseError Expr :=
  let attempt := expression text tokens
  match attempt.taken with
  | none => .error (.ofStuck text attempt.furthest)
  | some (expr, rest) =>
    if rest.1 = [] then .ok expr else .error (.ofStuck text (further attempt.furthest rest.1))

end Expr

end CrayAssembler
