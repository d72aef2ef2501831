import CrayAssembler.Text.Blank

namespace CrayAssembler

/-- Source lines are counted from 1. -/
abbrev LineNumber := Nat

structure SourceLine where
  /-- Where the statement starts. -/
  number : LineNumber
  text : String
  truncated : Bool
deriving DecidableEq, Repr

namespace SourceLine

def maxLength : Nat := 90

def minLength : Nat := 7

def make (number : LineNumber) (raw : List Char) : SourceLine :=
  let shown := Text.trimEnd raw
  let kept := shown.take maxLength
  { number
    text := String.ofList (kept ++ List.replicate (minLength - kept.length) ' ')
    truncated := maxLength < shown.length }

/-- Physical lines: each ends with a line feed, with or without a carriage return before it, or
with the text. -/
def physical : List Char → List (List Char)
  | [] => []
  | '\r' :: '\n' :: rest => [] :: physical rest
  | '\n' :: rest => [] :: physical rest
  | c :: rest =>
    match physical rest with
    | [] => [[c]]
    | line :: more => (c :: line) :: more

/-- Join continuations to the line before them. `number` and `current` are the logical line being
built and `next` is the number of the first physical line to come. -/
def joinFrom (number : LineNumber) (current : List Char) (next : LineNumber) :
    List (List Char) → List SourceLine
  | [] => [make number current]
  | (',' :: more) :: rest => joinFrom number (Text.trimEnd current ++ more) (next + 1) rest
  | line :: rest => make number current :: joinFrom next line (next + 1) rest

/-- Logical lines of a text whose first physical line has number `first`. -/
def ofText (text : String) (first : LineNumber) : List SourceLine :=
  match physical text.toList with
  | [] => []
  | line :: rest => joinFrom first line (first + 1) rest

end SourceLine

end CrayAssembler
