import CrayAssembler.Expr.Parser
import CrayAssembler.Pattern.Basic
import CrayAssembler.Token.Lexer

namespace CrayAssembler

/-- What is left of a pattern, and what it stands for. -/
structure Matcher.Row (α : Type) where
  items : List PatternItem
  handler : α

/-- A set of patterns, in the order in which they were added. -/
structure Matcher (α : Type) where
  rows : List (Matcher.Row α)

namespace Matcher

variable {α : Type}

def empty : Matcher α := ⟨[]⟩

def size (matcher : Matcher α) : Nat :=
  matcher.rows.length

/-- Add a pattern that is not yet present. -/
def insert (matcher : Matcher α) (pattern : String) (handler : α) :
    Except PatternError (Matcher α) := do
  let items ← PatternItem.ofPattern pattern
  if matcher.rows.any fun row => row.items = items then throw (.duplicate pattern)
  return ⟨matcher.rows ++ [⟨items, handler⟩]⟩

def ofPatterns (patterns : List (String × α)) : Except PatternError (Matcher α) :=
  patterns.foldlM (fun matcher (pattern, handler) => matcher.insert pattern handler) empty

/-- The rows that are possible at some point of a statement. -/
abbrev Node (α : Type) := List (Row α)

namespace Node

/-- Rows that start with an item, without it. -/
def after (node : Node α) (item : PatternItem) : Node α :=
  node.filterMap fun row =>
    match row.items with
    | [] => none
    | first :: rest => if first = item then some ⟨rest, row.handler⟩ else none

/-- The node after an item, when some row starts with it. -/
def child? (node : Node α) (item : PatternItem) : Option (Node α) :=
  match node.after item with
  | [] => none
  | rows => some rows

/-- Whether some row starts with an item of this kind. -/
def startsWith (node : Node α) (p : PatternItem → Bool) : Bool :=
  node.any fun row => row.items.head?.any p

/-- What the finished pattern stands for, if one ends here. -/
def handler? (node : Node α) : Option α :=
  (node.find? fun row => row.items.isEmpty).map (·.handler)

end Node

/-- Something taken from a statement by a pattern. -/
inductive Arg where
  | register (number : Nat)
  | expression (expr : Expr)
deriving DecidableEq, Repr

inductive MatchError where
  /-- No pattern has this shape. -/
  | noMatch
  /-- An expression that the shape calls for cannot be read. -/
  | badExpression (reason : Expr.ParseError)
deriving DecidableEq, Repr

/-- The tokens of one field and the text they come from. -/
structure FieldTokens where
  tokens : List Token
  text : List Char

def FieldTokens.ofText (text : String) (anyCase : Bool) : FieldTokens :=
  ⟨tokenize text.toList anyCase, text.toList⟩

/-- Nodes that patterns lead through: the node after an item, whether an item of some kind can come
next, and what the pattern stands for that ends at a node. -/
structure Graph (ν α : Type) where
  child? : ν → PatternItem → Option ν
  startsWith : ν → (PatternItem → Bool) → Bool
  handler? : ν → Option α

/-- One step of the walk: the next node, what was taken, and how many more tokens it spans. -/
structure Move (ν : Type) where
  node : ν
  arg : Option Arg
  taken : Nat

/-- A pattern found, and the registers and expressions of the statement in order. -/
structure Found (α : Type) where
  handler : α
  args : List Arg
deriving DecidableEq

namespace Graph

variable {ν : Type} (graph : Graph ν α)

/-- Whether the walk could go on with `next`, or at the end of the field. -/
def accepts (node : ν) (next : Option Token) : Bool :=
  match (next.map (·.kind) : Option Token.Kind) with
  | none => (graph.handler? node).isSome || graph.startsWith node (· = .fieldDelimiter)
  | some .comma => graph.startsWith node (· = .subfieldDelimiter)
  | some (.register register) =>
    graph.startsWith node fun
      | .register kind _ => kind = register.kind
      | _ => false
  | some (.operator operator) =>
    graph.startsWith node fun item => item = .operator operator || item = .expression
  | some _ =>
    graph.startsWith node fun
      | .expression | .mnemonic _ => true
      | _ => false

/-- The node after a register. Where both the register itself and its class fit, the register
itself is preferred if the walk can go on after it. -/
def registerChild? (node : ν) (register : Register) (next : Option Token) : Option ν :=
  let fixed? := graph.child? node (.register register.kind (some register.number))
  let general? := graph.child? node (.register register.kind none)
  match fixed?, general? with
  | some fixed, some general => some (if graph.accepts fixed next then fixed else general)
  | fixed?, general? => fixed?.or general?

/-- Take an expression from the tokens. -/
def moveExpression (node : ν) (text : List Char) (tokens : List Token) :
    Except MatchError (Move ν) :=
  match graph.child? node .expression with
  | none => .error .noMatch
  | some next =>
    match Expr.parseLongest tokens text with
    | .error reason => .error (.badExpression reason)
    | .ok (expr, used) => .ok ⟨next, some (.expression expr), used - 1⟩

/-- The node after a token that is an item by itself, with what was taken. `atStart` says that the
token is the first of its subfield; an operator there begins an expression unless a register
follows. -/
def moveToken? (node : ν) (anyCase atStart : Bool) (token : Token) (next : Option Token) :
    Option (ν × Option Arg) :=
  match token.kind with
  | .register register =>
    (graph.registerChild? node register next).map (·, some (.register register.number))
  | .operator operator =>
    let expressionWins := (graph.child? node .expression).isSome && atStart &&
      !next.any Token.isRegister
    if expressionWins then none else (graph.child? node (.operator operator)).map (·, none)
  | .name ⟨none, word⟩ =>
    if next.isNone then
      (graph.child? node (.mnemonic (if anyCase then Text.upper word else word))).map (·, none)
    else none
  | _ => none

def move (node : ν) (text : List Char) (anyCase atStart : Bool) (token : Token)
    (rest : List Token) : Except MatchError (Move ν) :=
  if token.kind = .comma then
    match graph.child? node .subfieldDelimiter with
    | some next => .ok ⟨next, none, 0⟩
    | none => .error .noMatch
  else
    match graph.moveToken? node anyCase atStart token rest.head? with
    | some (next, arg) => .ok ⟨next, arg, 0⟩
    | none => graph.moveExpression node text (token :: rest)

/-- Follow the tokens of a field, the first `skip` of which belong to the expression before. -/
def walk (text : List Char) (anyCase : Bool) (node : ν) (args : List Arg) (atStart : Bool)
    (skip : Nat) : List Token → Except MatchError (ν × List Arg)
  | [] => .ok (node, args)
  | token :: rest =>
    let startsNext := token.kind = .comma
    match skip with
    | more + 1 => walk text anyCase node args startsNext more rest
    | 0 =>
      match graph.move node text anyCase atStart token rest with
      | .error reason => .error reason
      | .ok step =>
        walk text anyCase step.node (args ++ step.arg.toList) startsNext step.taken rest

/-- Find the pattern of a statement from a node on. With `anyCase` mnemonics may be of either case. -/
def find (start : ν) (result operand : FieldTokens) (anyCase : Bool) :
    Except MatchError (Found α) := do
  let (afterResult, args) ← graph.walk result.text anyCase start [] true 0 result.tokens
  match graph.child? afterResult .fieldDelimiter with
  | none => throw .noMatch
  | some node =>
    let (final, args) ← graph.walk operand.text anyCase node args true 0 operand.tokens
    match graph.handler? final with
    | some handler => return ⟨handler, args⟩
    | none => throw .noMatch

end Graph

/-- The graph of what is left of patterns. -/
def byRows : Graph (Node α) α where
  child? := Node.child?
  startsWith := Node.startsWith
  handler? := Node.handler?

/-- Find the pattern of a statement. -/
def find (matcher : Matcher α) (result operand : FieldTokens) (anyCase : Bool) :
    Except MatchError (Found α) :=
  byRows.find matcher.rows result operand anyCase

end Matcher

end CrayAssembler
