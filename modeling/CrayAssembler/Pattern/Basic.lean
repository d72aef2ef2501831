import CrayAssembler.Register
import CrayAssembler.Text.Quoted
import CrayAssembler.Token.Operator

namespace CrayAssembler

inductive PatternItem where
  | fieldDelimiter
  | subfieldDelimiter
  /-- A register of the class; with a number, only that register. -/
  | register (kind : RegisterClass) (number : Option Nat)
  | operator (operator : Operator)
  | expression
  | mnemonic (word : String)
deriving DecidableEq, Repr

inductive PatternError where
  | badRegister (letters pattern : String)
  | badNumber (pattern : String)
  | badCharacter (c : Char) (pattern : String)
  | duplicate (pattern : String)
deriving DecidableEq, Repr

namespace PatternError

def message : PatternError → String
  | badRegister letters pattern => s!"bad register {letters} in pattern {pattern}"
  | badNumber pattern => s!"bad register number in pattern {pattern}"
  | badCharacter c pattern => s!"bad character {Text.quotedChar c} in pattern {pattern}"
  | duplicate pattern => s!"duplicate instruction pattern {Text.quoted pattern}"

end PatternError

namespace PatternItem

/-- A register or mnemonic from its capital letters, small letters and digits. -/
def ofWord (pattern : String) (letters : String) (small digits : List Char) :
    Except PatternError PatternItem :=
  if digits.isEmpty then
    match RegisterClass.ofLetters? letters (!small.isEmpty) with
    | some kind => .ok (register kind none)
    | none =>
      if small.isEmpty then .ok (mnemonic letters) else .error (.badRegister letters pattern)
  else
    match RegisterClass.ofLetters? letters true with
    | none => .error (.badRegister letters pattern)
    | some kind =>
      let number? := digits.foldlM (fun n c => (Text.digitValue? 8 c).map (n * 8 + ·)) 0
      match number?.filter (· < 256) with
      | none => .error (.badNumber pattern)
      | some number => .ok (register kind (some number))

/-- An operator that starts with `c`, and how many of the following characters it takes. -/
def readOperator (pattern : String) (c : Char) (rest : List Char) :
    Except PatternError (PatternItem × Nat) :=
  let plain? := (Operator.ofSign? c).filter (· ≠ .equals)
  let variant? : Option Operator :=
    match rest with
    | letter :: following :: _ =>
      if following.isUpper then (plain?.bind fun o => o.variants.lookup letter) else none
    | _ => none
  match variant?, c, rest with
  | some variant, _, _ => .ok (operator variant, 1)
  | none, '#', '<' :: _ => .ok (operator .hashLess, 1)
  | none, '#', '>' :: _ => .ok (operator .hashGreater, 1)
  | none, _, _ =>
    match plain? with
    | some plain => .ok (operator plain, 0)
    | none => .error (.badCharacter c pattern)

/-- The item that starts with `c`, and how many of the following characters it takes. -/
def read (pattern : String) (c : Char) (rest : List Char) :
    Except PatternError (PatternItem × Nat) :=
  match c with
  | ' ' => .ok (fieldDelimiter, 0)
  | ',' => .ok (subfieldDelimiter, 0)
  | '$' => .ok (expression, 0)
  | _ =>
    if c.isUpper then
      let letters := rest.takeWhile Char.isUpper
      let afterLetters := rest.drop letters.length
      let small := afterLetters.takeWhile Char.isLower
      let digits := (afterLetters.drop small.length).takeWhile Char.isDigit
      (ofWord pattern (String.ofList (c :: letters)) small digits).map
        (·, letters.length + small.length + digits.length)
    else readOperator pattern c rest

/-- Items of a pattern whose first `skip` characters are already taken. -/
def readFrom (pattern : String) (skip : Nat) : List Char → Except PatternError (List PatternItem)
  | [] => .ok []
  | c :: rest =>
    match skip with
    | more + 1 => readFrom pattern more rest
    | 0 => do
      let (item, taken) ← read pattern c rest
      return item :: (← readFrom pattern taken rest)

/-- Items of a pattern. One without an operand field ends with a field delimiter all the same. -/
def ofPattern (pattern : String) : Except PatternError (List PatternItem) := do
  let items ← readFrom pattern 0 pattern.toList
  return if items.contains fieldDelimiter then items else items ++ [fieldDelimiter]

end PatternItem

end CrayAssembler
