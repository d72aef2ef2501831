import CrayAssembler.Text.Digits

namespace CrayAssembler

inductive RegisterClass where
  | a
  | s
  /-- Population count of an S register. -/
  | ps
  /-- Parity of an S register. -/
  | qs
  /-- Leading zero count of an S register. -/
  | zs
  | v
  | pv
  | qv
  /-- Shared B registers. -/
  | sb
  /-- One semaphore bit. -/
  | smBit
  /-- Status registers. -/
  | sr
  /-- Shared T registers. -/
  | st
  | b
  | t
  /-- The whole semaphore register. -/
  | semaphores
  /-- Channel address. -/
  | ca
  /-- Channel error flag. -/
  | ce
  /-- Channel interrupt. -/
  | ci
  /-- Channel limit. -/
  | cl
  /-- Master clear. -/
  | mc
  /-- Real-time clock. -/
  | rt
  /-- Vector length. -/
  | vl
  /-- Vector mask. -/
  | vm
  /-- Exchange address. -/
  | xa
deriving DecidableEq, Repr

namespace RegisterClass

/-- The class whose designators are these letters, with or without a number. -/
def ofLetters? (letters : String) (numbered : Bool) : Option RegisterClass :=
  match letters, numbered with
  | "A", true => some a
  | "S", true => some s
  | "PS", true => some ps
  | "QS", true => some qs
  | "ZS", true => some zs
  | "V", true => some v
  | "PV", true => some pv
  | "QV", true => some qv
  | "SB", true => some sb
  | "SM", true => some smBit
  | "SR", true => some sr
  | "ST", true => some st
  | "B", true => some b
  | "T", true => some t
  | "SM", false => some semaphores
  | "CA", false => some ca
  | "CE", false => some ce
  | "CI", false => some ci
  | "CL", false => some cl
  | "MC", false => some mc
  | "RT", false => some rt
  | "VL", false => some vl
  | "VM", false => some vm
  | "XA", false => some xa
  | _, _ => none

/-- Whether the number may have two octal digits. -/
def hasWideNumber (kind : RegisterClass) : Bool :=
  kind = smBit || kind = b || kind = t

end RegisterClass

structure Register where
  kind : RegisterClass
  number : Nat
deriving DecidableEq, Repr

namespace Register

/-- Read a whole text as a designator: letters, then at most two octal digits, of which the second
only where the class allows it. With `anyCase` the letters may be of either case. -/
def read? (chars : List Char) (anyCase : Bool) : Option Register := do
  let letters := chars.takeWhile Char.isAlpha
  let digits := chars.drop letters.length
  let shown := String.ofList (if anyCase then letters.map Char.toUpper else letters)
  let kind ← RegisterClass.ofLetters? shown (!digits.isEmpty)
  match digits with
  | [] => return ⟨kind, 0⟩
  | [d] => return ⟨kind, ← Text.digitValue? 8 d⟩
  | [d, e] =>
    if kind.hasWideNumber then
      return ⟨kind, (← Text.digitValue? 8 d) * 8 + (← Text.digitValue? 8 e)⟩
    else none
  | _ => none

end Register

end CrayAssembler
