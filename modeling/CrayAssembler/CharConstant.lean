import CrayAssembler.Identifier
import CrayAssembler.Machine.Characters
import CrayAssembler.Numeral
import CrayAssembler.Text.Blank

namespace CrayAssembler

/-- How many character positions a constant takes. -/
inductive CharCount where
  /-- As many as needed, filled up to whole words. -/
  | words
  /-- As many as there are characters. -/
  | exact
  | chars (n : Nat)
deriving DecidableEq, Repr

structure CharConstant where
  bytes : List UInt8
  count : CharCount
  justification : Justification
deriving DecidableEq, Repr

namespace CharConstant

/-- Number of character positions that the constant takes. -/
def length (constant : CharConstant) : Nat :=
  match constant.count with
  | .chars n => n
  | .words | .exact => constant.bytes.length

def pack (constant : CharConstant) : List Word :=
  Characters.pack constant.bytes constant.length constant.justification

/-- Text up to the closing apostrophe, and what follows it. -/
def readBody : List Char → Option (List Char × List Char)
  | [] => none
  | '\'' :: '\'' :: rest => (readBody rest).map fun (body, after) => ('\'' :: body, after)
  | '\'' :: rest => some ([], rest)
  | c :: rest => (readBody rest).map fun (body, after) => (c :: body, after)

/-- The count, if any, and what follows it. A count of more than 64 bits is refused. -/
def readCount : List Char → Option (CharCount × List Char)
  | '*' :: rest => some (.exact, rest)
  | chars =>
    let digits := chars.takeWhile Char.isDigit
    match Numeral.natural? digits with
    | none => some (.words, chars)
    | some n => if n < UInt64.size then some (.chars n, chars.drop digits.length) else none

/-- The letter of the justification, if any, and what follows it. A letter that begins a longer
word is not one. -/
def readJustification : List Char → Justification × List Char
  | [] => (.leftBlank, [])
  | c :: rest =>
    match Justification.ofSuffix? c with
    | none => (.leftBlank, c :: rest)
    | some justification =>
      if rest.head?.any Identifier.bodyChar then (.leftBlank, c :: rest)
      else (justification, rest)

/-- A constant whose opening apostrophe has been read, and what follows it. -/
def read (chars : List Char) : Option (CharConstant × List Char) := do
  let (body, afterBody) ← readBody chars
  let (count, afterCount) ← readCount afterBody
  let (justification, rest) := readJustification afterCount
  return (⟨Text.bytes body, count, justification⟩, rest)

end CharConstant

end CrayAssembler
