import CrayAssembler.Double.Basic
import CrayAssembler.Machine.Word
import CrayAssembler.Text.Digits

namespace CrayAssembler

inductive NumeralError where
  | badDigit (digit : Char) (radix : Nat)
  | overflow
  | malformed (text : String)
deriving DecidableEq, Repr

def NumeralError.message : NumeralError → String
  | .badDigit digit radix => s!"'{digit}' is not a valid digit in base {radix}"
  | .overflow => "number is too large"
  | .malformed text => s!"'{text}' is not a valid number"

/-- The value of a numeric constant. -/
inductive Numeral where
  | integer (value : Word)
  | float (value : Double)
deriving DecidableEq, Repr

namespace Numeral

/-- Value of digits read after those that gave `value`. The first bad digit or the first step
beyond a word decides the error. -/
def accumulate (radix : Nat) (value : Nat) : List Char → Except NumeralError Nat
  | [] => .ok value
  | c :: cs =>
    match Text.digitValue? radix c with
    | none => .error (.badDigit c radix)
    | some digit =>
      let next := value * radix + digit
      if next < UInt64.size then accumulate radix next cs else .error .overflow

/-- Value of a text that holds digits only. -/
def ofDigits (radix : Nat) (digits : List Char) : Except NumeralError Nat :=
  if digits.isEmpty then .error (.malformed "") else accumulate radix 0 digits

/-- Natural number written with decimal digits only. -/
def natural? (digits : List Char) : Option Nat :=
  if digits.isEmpty then none
  else digits.foldlM (fun value c => (Text.digitValue? 10 c).map (value * 10 + ·)) 0

/-- An exponent: an optional sign, decimal digits, and a value of 32 bits. -/
def exponent? (chars : List Char) : Option Int :=
  let value? : Option Int :=
    match chars with
    | '-' :: digits => (natural? digits).map fun n => -(n : Int)
    | '+' :: digits => (natural? digits).map Int.ofNat
    | digits => (natural? digits).map Int.ofNat
  value?.filter fun value => -0x80000000 ≤ value && value < 0x80000000

/-- Cut a text at the first of two marker letters, what follows being an exponent. -/
def splitExponent (chars : List Char) (marker : Char) :
    Except NumeralError (List Char × Option Int) :=
  let (before, after) := chars.span fun c => c.toUpper ≠ marker
  match after with
  | [] => .ok (chars, none)
  | _ :: digits =>
    match exponent? digits with
    | some exponent => .ok (before, some exponent)
    | none => .error (.malformed (String.ofList chars))

/-- How many high bits of a word are zero. -/
def leadingZeros (value : Nat) : Nat :=
  if value = 0 then 64 else 63 - value.log2

/-- An integer times a power of two; lost low bits are dropped, lost high bits are an error. -/
def scaleInteger (value : Nat) (power : Int) : Except NumeralError Word :=
  match power with
  | .ofNat up =>
    if up = 0 then .ok (UInt64.ofNat value)
    else if 64 ≤ up || leadingZeros value < up then .error .overflow
    else .ok (UInt64.ofNat (value <<< up))
  | .negSucc down =>
    if 64 ≤ down + 1 then .ok 0 else .ok (UInt64.ofNat (value >>> (down + 1)))

/-- A floating-point constant from its mantissa and exponents. -/
def readFloat (unscaled mantissa : List Char) (exponent scale : Int) :
    Except NumeralError Double :=
  let (whole, fraction) := mantissa.span (· ≠ '.')
  let fraction := fraction.drop 1
  if !(whole.all Char.isDigit && fraction.all Char.isDigit) then
    .error (.malformed (String.ofList unscaled))
  else
    let digits := (natural? (whole ++ fraction)).getD 0
    let unscaledValue := Double.ofDecimal digits (exponent - fraction.length)
    let value := if scale = 0 then unscaledValue else unscaledValue.timesPowerOfTwo scale
    if value.isFinite then .ok value else .error .overflow

/-- Value of a constant whose integers are read in `radix`. -/
def read (chars : List Char) (radix : Nat) : Except NumeralError Numeral := do
  let (unscaled, scale) ← splitExponent chars 'S'
  let (mantissa, exponent) ← splitExponent unscaled 'E'
  if mantissa.contains '.' || exponent.isSome then
    return .float (← readFloat unscaled mantissa (exponent.getD 0) (scale.getD 0))
  else
    return .integer (← scaleInteger (← ofDigits radix mantissa) (scale.getD 0))

end Numeral

end CrayAssembler
