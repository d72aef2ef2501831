import CrayAssembler.CharConstant
import CrayAssembler.Token.Operator

namespace CrayAssembler

/-- Byte offsets of a part of a field. -/
structure Span where
  start : Nat
  stop : Nat
deriving DecidableEq, Repr

inductive Lexeme.Kind where
  | identifier
  | number
  | based (radix : Nat) (digits : List Char)
  | string (constant : CharConstant)
  | operator (operator : Operator)
  | leftParen
  | rightParen
  | comma
  | dot
  | unknown
deriving DecidableEq, Repr

structure Lexeme where
  kind : Lexeme.Kind
  text : List Char
  span : Span
deriving DecidableEq, Repr

namespace Lexeme

/-- Kind of a character that is a lexeme by itself. -/
def signKind (c : Char) : Kind :=
  match c with
  | '(' => .leftParen
  | ')' => .rightParen
  | ',' => .comma
  | '.' => .dot
  | _ =>
    match Operator.ofSign? c with
    | some operator => .operator operator
    | none => .unknown

/-- Number of characters of an optional exponent with this marker; none without digits. -/
def exponentLength (marker : Char) : List Char → Nat
  | [] => 0
  | c :: rest =>
    if c.toUpper = marker then
      let sign := if rest.head? = some '+' || rest.head? = some '-' then 1 else 0
      let digits := ((rest.drop sign).takeWhile Char.isDigit).length
      if digits = 0 then 0 else 1 + sign + digits
    else 0

/-- Number of characters of a number after its leading digits. -/
def numberTailLength (chars : List Char) : Nat :=
  let fraction :=
    match chars with
    | '.' :: rest => 1 + (rest.takeWhile Char.isDigit).length
    | _ => 0
  let decimal := exponentLength 'E' (chars.drop fraction)
  let binary := exponentLength 'S' (chars.drop (fraction + decimal))
  fraction + decimal + binary

/-- The radix that a letter before an apostrophe stands for. -/
def radix? (c : Char) : Option Nat :=
  match c.toUpper with
  | 'D' => some 10
  | 'O' => some 8
  | 'X' => some 16
  | _ => none

def isHexDigit (c : Char) : Bool :=
  (Text.digitValue? 16 c).isSome

/-- Kind of a character constant, and how many of the characters after its opening it takes. -/
def readString (justified : Option Justification) (chars : List Char) : Kind × Nat :=
  match CharConstant.read chars with
  | none => (.unknown, 0)
  | some (constant, rest) =>
    let constant :=
      match justified with
      | none => constant
      | some justification => { constant with justification }
    (.string constant, chars.length - rest.length)

/-- Kind of the lexeme that starts with `c`, and how many of the characters after `c` it takes. -/
def read (c : Char) (rest : List Char) : Kind × Nat :=
  if c = '\'' then readString none rest
  else if c.toUpper = 'A' && rest.head? = some '\'' then
    let (kind, taken) := readString (some .rightZero) (rest.drop 1)
    (kind, 1 + taken)
  else
    match radix? c, rest with
    | some radix, '\'' :: body =>
      let digits := body.takeWhile isHexDigit
      let closing := if (body.drop digits.length).head? = some '\'' then 1 else 0
      (.based radix digits, 1 + digits.length + closing)
    | _, _ =>
      if Identifier.startChar c then (.identifier, (rest.takeWhile Identifier.bodyChar).length)
      else if c.isDigit then
        let digits := (rest.takeWhile Char.isDigit).length
        (.number, digits + numberTailLength (rest.drop digits))
      else (signKind c, 0)

/-- Lexemes of the characters from byte offset `start` on, the first `skip` of which belong to the
lexeme before. -/
def scanFrom (start skip : Nat) : List Char → List Lexeme
  | [] => []
  | c :: rest =>
    let next := start + c.utf8Size
    match skip with
    | more + 1 => scanFrom next more rest
    | 0 =>
      if c = ' ' || c = '\t' then scanFrom next 0 rest
      else
        let (kind, taken) := read c rest
        let text := c :: rest.take taken
        ⟨kind, text, ⟨start, start + Text.byteSize text⟩⟩ :: scanFrom next taken rest

def scan (chars : List Char) : List Lexeme :=
  scanFrom 0 0 chars

/-- Whether `next` starts where `lexeme` ends. -/
def touches (lexeme next : Lexeme) : Bool :=
  lexeme.span.stop = next.span.start

end Lexeme

end CrayAssembler
