import CrayAssembler.Machine.Word

namespace CrayAssembler

/-- Where a string stands in the words that hold it, and what fills the rest. -/
inductive Justification where
  /-- Left justified, blank filled. -/
  | leftBlank
  /-- Left justified, zero filled. -/
  | leftZero
  /-- Right justified, zero filled. -/
  | rightZero
  /-- Left justified, zero filled, with at least one zero after the field. -/
  | zeroEnd
deriving DecidableEq, Repr, Inhabited

namespace Justification

/-- The suffix letter, of either case, that asks for a justification. -/
def ofSuffix? (c : Char) : Option Justification :=
  match c.toUpper with
  | 'H' => some leftBlank
  | 'L' => some leftZero
  | 'R' => some rightZero
  | 'Z' => some zeroEnd
  | _ => none

def fill : Justification → UInt8
  | leftBlank => 32
  | _ => 0

end Justification

def charsPerWord : Nat := 8

namespace Characters

/-- Characters of a field of `length` positions: the leftmost that fit, then the fill character,
and a zero after the field when the justification asks for one. -/
def field (chars : List UInt8) (length : Nat) (justification : Justification) : List UInt8 :=
  let kept := chars.take length
  kept ++ List.replicate (length - kept.length) justification.fill ++
    if justification = .zeroEnd then [0] else []

/-- A field filled up to whole words, on the left when it is right justified. -/
def layOut (chars : List UInt8) (length : Nat) (justification : Justification) : List UInt8 :=
  let field := field chars length justification
  let missing := (charsPerWord - field.length % charsPerWord) % charsPerWord
  match justification with
  | .rightZero => List.replicate missing 0 ++ field
  | _ => field ++ List.replicate missing justification.fill

/-- Words that hold a field of `length` characters. -/
def pack (chars : List UInt8) (length : Nat) (justification : Justification) : List Word :=
  (Word.wordsOfBytes (layOut chars length justification)).1

end Characters

end CrayAssembler
