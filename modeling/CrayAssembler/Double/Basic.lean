namespace CrayAssembler

/-- A binary64 number, kept as its bit pattern. -/
structure Double where
  bits : UInt64
deriving DecidableEq, Repr, Inhabited

namespace Double

def zero : Double := ⟨0⟩

def infinity : Double := ⟨0x7ff0000000000000⟩

/-- Weight of the sign bit. -/
def signWeight : Nat := 0x8000000000000000

/-- Weight of the bit that a normal number has above its fraction and does not store. -/
def hiddenBit : Nat := 0x10000000000000

def negative (x : Double) : Bool :=
  signWeight ≤ x.bits.toNat

def exponentField (x : Double) : Nat :=
  x.bits.toNat / hiddenBit % 2048

def fractionField (x : Double) : Nat :=
  x.bits.toNat % hiddenBit

def isNaN (x : Double) : Bool :=
  x.exponentField = 2047 && x.fractionField ≠ 0

def isInfinite (x : Double) : Bool :=
  x.exponentField = 2047 && x.fractionField = 0

def isFinite (x : Double) : Bool :=
  x.exponentField ≠ 2047

/-- True of both zeros. -/
def isZero (x : Double) : Bool :=
  x.exponentField = 0 && x.fractionField = 0

/-- Significand of a finite number, the hidden bit restored. -/
def significand (x : Double) : Nat :=
  if x.exponentField = 0 then x.fractionField else hiddenBit + x.fractionField

/-- Power of two by which the significand of a finite number counts. -/
def scale (x : Double) : Int :=
  max x.exponentField 1 - 1075

def neg (x : Double) : Double :=
  ⟨x.bits ^^^ 0x8000000000000000⟩

def abs (x : Double) : Double :=
  ⟨x.bits &&& 0x7fffffffffffffff⟩

/-- Quotient to the nearest integer, a half to the even neighbour. -/
def roundQuotient (numerator denominator : Nat) : Nat :=
  let quotient := numerator / denominator
  let twice := 2 * (numerator % denominator)
  if denominator < twice ∨ denominator = twice ∧ quotient % 2 = 1 then quotient + 1 else quotient

/-- Nearest number to a ratio. The unit of the last place is `2 ^ (place - 1074)`, and counting
patterns upward from zero gives the pattern itself. -/
def ofRatio (numerator denominator : Nat) : Double :=
  let scaled := numerator <<< 1074
  let place := (scaled / denominator).log2 - 52
  let pattern := place * hiddenBit + roundQuotient scaled (denominator <<< place)
  ⟨UInt64.ofNat (min pattern infinity.bits.toNat)⟩

def ofNat (n : Nat) : Double :=
  ofRatio n 1

def ofInt (n : Int) : Double :=
  if n < 0 then (ofNat n.natAbs).neg else ofNat n.natAbs

/-- Nearest number to `significand * 2 ^ scale`. -/
def ofScaled (significand : Nat) (scale : Int) : Double :=
  match scale with
  | .ofNat up => ofRatio (significand <<< up) 1
  | .negSucc down => ofRatio significand (1 <<< (down + 1))

/-- Nearest number to `mantissa * 10 ^ exponent`. Numbers beyond the range are told by their
decimal order alone, so that no large power is formed for them. -/
def ofDecimal (mantissa : Nat) (exponent : Int) : Double :=
  if mantissa = 0 then zero
  else if 400 < exponent then infinity
  else if exponent + (Nat.toDigits 10 mantissa).length < -400 then zero
  else
    match exponent with
    | .ofNat up => ofRatio (mantissa * Nat.pow 10 up) 1
    | .negSucc down => ofRatio mantissa (Nat.pow 10 (down + 1))

/-- Product with a power of two. The power is a number of the format: infinite from `2 ^ 1024` on,
zero from `2 ^ -1024` down. -/
def timesPowerOfTwo (x : Double) (power : Int) : Double :=
  let magnitude :=
    if !x.isFinite then x.abs
    else if 1024 ≤ power then if x.isZero then ⟨0x7ff8000000000000⟩ else infinity
    else if power ≤ -1024 then zero
    else ofScaled x.significand (x.scale + power)
  if x.negative then magnitude.neg else magnitude

def add (x y : Double) : Double :=
  ⟨(Float.ofBits x.bits + Float.ofBits y.bits).toBits⟩

def sub (x y : Double) : Double :=
  ⟨(Float.ofBits x.bits - Float.ofBits y.bits).toBits⟩

def mul (x y : Double) : Double :=
  ⟨(Float.ofBits x.bits * Float.ofBits y.bits).toBits⟩

def div (x y : Double) : Double :=
  ⟨(Float.ofBits x.bits / Float.ofBits y.bits).toBits⟩

/-- Position on the number line, both zeros at one place; meaningful unless the number is a NaN. -/
def position (x : Double) : Int :=
  if x.negative then -(x.abs.bits.toNat : Int) else x.bits.toNat

/-- Order of two numbers; a NaN has none. -/
def compare? (x y : Double) : Option Ordering :=
  if x.isNaN || y.isNaN then none else some (compare x.position y.position)

end Double

end CrayAssembler
