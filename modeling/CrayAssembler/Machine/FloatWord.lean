import CrayAssembler.Double.Shortest
import CrayAssembler.Machine.Word

namespace CrayAssembler

namespace FloatWord

def exponentBias : Nat := 0x4000

/-- The largest exponent field. -/
def exponentMax : Nat := 0x7fff

def coefficientBits : Nat := 48

/-- One more than the largest coefficient. -/
def coefficientLimit : Nat := 0x1000000000000

/-- Weight of the sign bit. -/
def signWeight : Nat := 0x8000000000000000

/-- Why a host number has no floating-point word. -/
inductive RangeError where
  | overflow (x : Double)
  | underflow (x : Double)
  | notANumber
deriving DecidableEq, Repr

def RangeError.message : RangeError → String
  | .overflow x => x.text ++ " is too large for the floating-point format"
  | .underflow x => x.text ++ " is too small for the floating-point format"
  | .notANumber => "value is not a number"

/-- A word from its sign, exponent field and coefficient. -/
def compose (negative : Bool) (exponent coefficient : Nat) : Word :=
  UInt64.ofNat
    ((if negative then signWeight else 0) + exponent * coefficientLimit + coefficient)

/-- A word for a number of the host, unless the exponent has no room in its field. -/
def pack (x : Double) (exponent : Int) (coefficient : Nat) : Except RangeError Word :=
  let field := exponent + exponentBias
  if exponentMax < field then .error (.overflow x)
  else if field < 0 then .error (.underflow x)
  else .ok (compose x.negative field.toNat coefficient)

/-- Number of bits by which the significand of a host number is shortened. -/
def droppedBits : Nat := 53 - coefficientBits

/-- A significand to 48 bits, a half upward. -/
def shorten (significand : Nat) : Nat :=
  let kept := significand >>> droppedBits
  if significand >>> (droppedBits - 1) % 2 = 1 then kept + 1 else kept

/-- The significand of 53 bits is rounded to 48. A carry out of the coefficient moves to the
exponent. Subnormal numbers are refused. -/
def ofDouble (x : Double) : Except RangeError Word :=
  if x.isNaN then .error .notANumber
  else if x.isInfinite then .error (.overflow x)
  else if x.isZero then .ok 0
  else if x.exponentField = 0 then .error (.underflow x)
  else
    let exponent : Int := x.exponentField - 1022
    let coefficient := shorten x.significand
    if coefficient >>> coefficientBits ≠ 0 then pack x (exponent + 1) (coefficient >>> 1)
    else pack x exponent coefficient

/-- Host number of a word. Beyond the range of the host it is infinite or zero. -/
def toDouble (word : Word) : Double :=
  let coefficient := word.toNat % coefficientLimit
  if coefficient = 0 then .zero
  else
    let exponent : Nat := word.toNat / coefficientLimit % 0x8000
    let magnitude :=
      (Double.ofNat coefficient).timesPowerOfTwo ((exponent : Int) - exponentBias - coefficientBits)
    if signWeight ≤ word.toNat then magnitude.neg else magnitude

end FloatWord

end CrayAssembler
