import CrayAssembler.Identifier
import CrayAssembler.Source.Format
import CrayAssembler.Text.Blank

namespace CrayAssembler

/-- How deep a place is in quotes and parentheses. -/
structure Nesting where
  quoted : Bool
  depth : Nat
deriving DecidableEq, Repr

namespace Nesting

def outside : Nesting := ⟨false, 0⟩

def isOutside (nesting : Nesting) : Bool :=
  !nesting.quoted && nesting.depth = 0

/-- Nesting after one more character. A parenthesis inside quotes does not count, and one that
closes nothing is ignored. -/
def after (nesting : Nesting) (c : Char) : Nesting :=
  if c = '\'' then { nesting with quoted := !nesting.quoted }
  else if nesting.quoted then nesting
  else if c = '(' then { nesting with depth := nesting.depth + 1 }
  else if c = ')' then { nesting with depth := nesting.depth - 1 }
  else nesting

end Nesting

structure Fields where
  location : String
  result : String
  operand : String
  /-- Byte offset of the operand in the statement. -/
  operandColumn : Nat
deriving DecidableEq, Repr, Inhabited

namespace Fields

/-- Whether the whole line is a comment. -/
def isComment (line : List Char) : Bool :=
  (Text.trimStart line).head? = some '*'

def isSeparator (c : Char) : Bool :=
  c = ' ' || c = '\t'

/-- Characters up to the first separator that is not protected, and the rest. -/
def runFrom (nesting : Nesting) : List Char → List Char × List Char
  | [] => ([], [])
  | c :: rest =>
    if isSeparator c && nesting.isOutside then ([], c :: rest)
    else
      let (run, after) := runFrom (nesting.after c) rest
      (c :: run, after)

def run (chars : List Char) : List Char × List Char :=
  runFrom .outside chars

/-- Characters before the first semicolon that is not quoted. -/
def beforeSemicolon (quoted : Bool) : List Char → List Char
  | [] => []
  | c :: rest =>
    if c = ';' && !quoted then []
    else c :: beforeSemicolon (if c = '\'' then !quoted else quoted) rest

/-- The part of a line that the source format does not set aside. -/
def withoutCommentary (line : List Char) (format : SourceFormat) : List Char :=
  match format with
  | .old => line.take SourceFormat.oldWidth
  | .new => beforeSemicolon false line

/-- ASCII white space, with the form feed and without the vertical tab. -/
def isAsciiSpace (c : Char) : Bool :=
  c = ' ' || c = '\t' || c = '\n' || c = '\x0c' || c = '\r'

/-- The location field, which starts in the first column or after a single blank, and the rest. -/
def splitLocation (line : List Char) : List Char × List Char :=
  match line with
  | [] => ([], [])
  | [c] => if isAsciiSpace c then ([], [c]) else run [c]
  | c :: d :: rest =>
    if !isAsciiSpace c then run (c :: d :: rest)
    else if !isAsciiSpace d then run (d :: rest)
    else ([], c :: d :: rest)

/-- Divide a statement into its fields. -/
def ofStatement (line : List Char) : Fields :=
  let (location, afterLocation) := splitLocation line
  let (result, afterResult) := run (afterLocation.dropWhile isSeparator)
  let beforeOperand := afterResult.dropWhile isSeparator
  { location := String.ofList location
    result := String.ofList result
    operand := String.ofList (run beforeOperand).1
    operandColumn := Text.byteSize line - Text.byteSize beforeOperand }

/-- Pieces between commas that are not protected; there is always at least one. -/
def splitFrom (nesting : Nesting) : List Char → List (List Char)
  | [] => [[]]
  | c :: rest =>
    if c = ',' && nesting.isOutside then [] :: splitFrom nesting rest
    else
      match splitFrom (nesting.after c) rest with
      | [] => [[c]]
      | piece :: more => (c :: piece) :: more

/-- Subfields of a field; an empty field has none. -/
def splitSubfields (field : List Char) : List (List Char) :=
  if field.isEmpty then [] else splitFrom .outside field

def subfields (field : String) : List String :=
  (splitSubfields field.toList).map String.ofList

/-- Remove one level of enclosing parentheses. -/
def withoutParens (text : List Char) : List Char :=
  match text with
  | '(' :: rest => if rest.getLast? = some ')' then rest.dropLast else text
  | _ => text

/-- Text in which every apostrophe is written twice; none when one stands alone. -/
def undouble : List Char → Option (List Char)
  | [] => some []
  | '\'' :: '\'' :: rest => (undouble rest).map ('\'' :: ·)
  | '\'' :: _ => none
  | c :: rest => (undouble rest).map (c :: ·)

/-- The text of exactly one quoted string. -/
def unquote (text : List Char) : Option (List Char) :=
  match text with
  | '\'' :: rest => if rest.getLast? = some '\'' then undouble rest.dropLast else none
  | _ => none

def isIdentifier (text : String) : Bool :=
  Identifier.valid text.toList

end Fields

end CrayAssembler
