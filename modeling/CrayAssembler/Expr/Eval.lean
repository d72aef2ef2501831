import CrayAssembler.Numeral
import CrayAssembler.Value.Arithmetic

namespace CrayAssembler

/-- A symbol as an expression sees it. -/
structure SymbolRef where
  value : Value
  /-- The symbol is not defined yet in this pass. -/
  forward : Bool
deriving DecidableEq, Repr

/-- The value of an expression and what was noticed on the way. -/
structure Evaluation where
  value : Value
  /-- Some symbol of the expression is not defined yet. -/
  forward : Bool
  warnings : List WarningKind
deriving DecidableEq, Repr

/-- What a literal is to hold. -/
inductive LiteralOperand (m : Type → Type) where
  | characters (constant : CharConstant)
  /-- The value of an expression, which is evaluated when it is asked for. -/
  | computed (evaluation : m (Except ErrorKind Evaluation))

/-- What an expression needs from its surroundings. -/
structure Surroundings (m : Type → Type) where
  symbol : Name → m SymbolRef
  counter : Counter → m Value
  /-- The address of the literal that is told by its key. -/
  literal : String → LiteralOperand m → m (Except ErrorKind Value)
  /-- The radix of numbers without a base of their own. -/
  radix : m Nat

namespace Eval

/-- What was noticed so far. -/
structure Progress where
  forward : Bool := false
  /-- Warnings in the order in which they arose, each once. -/
  warnings : List WarningKind := []
deriving DecidableEq, Repr

abbrev EvalM (m : Type → Type) := ExceptT ErrorKind (StateT Progress m)

/-- One step of an evaluation. -/
inductive Step (m : Type → Type) where
  | operand (read : EvalM m Value)
  | unary (op : UnaryOp)
  | binary (op : BinaryOp)

variable {m : Type → Type} [Monad m]

def symbol (env : Surroundings m) (name : Name) : EvalM m Value := do
  let found ← env.symbol name
  modify fun progress => { progress with forward := progress.forward || found.forward }
  return { found.value with attributes := found.value.attributes.ofValue }

def number (env : Surroundings m) (text : String) : EvalM m Value := do
  match Numeral.read text.toList (← env.radix) with
  | .ok (.integer n) => return .absolute n
  | .ok (.float x) => return .float x
  | .error _ => throw .syntaxError

/-- Characters as a number; they must fit in a word. -/
def characters (constant : CharConstant) : EvalM m Value :=
  match constant.pack with
  | [] => return .absolute 0
  | [word] => return .absolute word
  | _ => throw .dataItem

def literal (env : Surroundings m) (key : String) (operand : LiteralOperand m) :
    EvalM m Value := do
  match ← env.literal key operand with
  | .ok value => return value
  | .error kind => throw kind

/-- Note a warning unless it was noted before. -/
def warn (kind : WarningKind) : EvalM m Unit :=
  modify fun progress =>
    if progress.warnings.contains kind then progress
    else { progress with warnings := progress.warnings ++ [kind] }

def unary (op : UnaryOp) (value : Value) : EvalM m Value :=
  match Value.unary op value with
  | .ok result => return result
  | .error kind => throw kind

def binary (op : BinaryOp) (left right : Value) : EvalM m Value := do
  match Value.binary op left right with
  | .ok result =>
    if result.mixedKinds then warn .expressionElement
    return result.value
  | .error kind => throw kind

/-- One step on a stack whose top is its head. -/
def step (stack : List Value) : Step m → EvalM m (List Value)
  | .operand read => do return (← read) :: stack
  | .unary op =>
    match stack with
    | value :: rest => do return (← unary op value) :: rest
    | [] => throw .expression
  | .binary op =>
    match stack with
    | right :: left :: rest => do return (← binary op left right) :: rest
    | _ => throw .expression

/-- The value left by all steps. -/
def run (steps : List (Step m)) : EvalM m Value := do
  match ← steps.foldlM step [] with
  | [value] => return value
  | _ => throw .expression

/-- Evaluate from the start and collect what was noticed. -/
def collect (evaluation : EvalM m Value) : m (Except ErrorKind Evaluation) := do
  let (result, progress) ← evaluation.run.run {}
  return result.map fun value => ⟨value, progress.forward, progress.warnings⟩

/-- The steps of an expression. Parentheses leave no trace, since the shape of the tree already
says what they group. -/
def steps (env : Surroundings m) : Expr → List (Step m)
  | .symbol name => [.operand (symbol env name)]
  | .number text => [.operand (number env text)]
  | .based value => [.operand (return .absolute value)]
  | .string constant => [.operand (characters constant)]
  | .location counter => [.operand (env.counter counter)]
  | .unary op operand => steps env operand ++ [.unary op]
  | .binary op left right => steps env left ++ steps env right ++ [.binary op]
  | .group inner => steps env inner
  | .literal key operand =>
    let held : LiteralOperand m :=
      match operand with
      | .string constant => .characters constant
      | _ => .computed (collect (run (steps env operand)))
    [.operand (literal env key held)]

end Eval

/-- The value of an expression. An undefined symbol makes the value undefined and is no error. -/
def Expr.evaluate {m : Type → Type} [Monad m] (env : Surroundings m) (expr : Expr) :
    m (Except ErrorKind Evaluation) :=
  Eval.collect (Eval.run (Eval.steps env expr))

end CrayAssembler
