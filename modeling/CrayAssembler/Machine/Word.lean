namespace CrayAssembler

/-- A word of the machine. -/
abbrev Word := UInt64

/-- A quarter of a word, the unit in which instructions are counted. -/
abbrev Parcel := UInt16

def parcelBits : Nat := 16

def wordBits : Nat := 64

def parcelsPerWord : Nat := 4

/-- Counters of a word run over here. -/
def countLimit : Nat := UInt64.size

/-- A count that does not run over. -/
def counted? (n : Nat) : Option Nat :=
  if n < countLimit then some n else none

/-- Consecutive bits of a word; `start` counts from the most significant bit. -/
structure BitField where
  start : Nat
  width : Nat
  inside : start + width ≤ wordBits
deriving DecidableEq

namespace BitField

def make? (start width : Nat) : Option BitField :=
  if inside : start + width ≤ wordBits then some ⟨start, width, inside⟩ else none

/-- What is said of a field that does not lie within a word. -/
def outsideMessage (start width : Nat) : String :=
  s!"field {start}+{width} lies outside a word"

/-- The field, or what is said where it does not lie within a word. -/
def check (start width : Nat) : Except String BitField :=
  match make? start width with
  | some field => .ok field
  | none => .error (outsideMessage start width)

theorem check_inside {start width : Nat} (inside : start + width ≤ wordBits) :
    check start width = .ok ⟨start, width, inside⟩ := by
  unfold check make?
  rw [dif_pos inside]

theorem check_outside {start width : Nat} (outside : wordBits < start + width) :
    check start width = .error (outsideMessage start width) := by
  unfold check make?
  rw [dif_neg (Nat.not_le.mpr outside)]

/-- Number of bits of the word to the right of the field. -/
def below (field : BitField) : Nat :=
  wordBits - field.start - field.width

end BitField

namespace Word

/-- The four parcels of a word, most significant first. -/
def parcels (word : Word) : List Parcel :=
  [(word >>> 48).toUInt16, (word >>> 32).toUInt16, (word >>> 16).toUInt16, word.toUInt16]

def ofParcels (parcels : List Parcel) : Word :=
  parcels.foldl (fun word parcel => word <<< 16 ||| parcel.toUInt64) 0

/-- The `n` least significant bits set; all of them when `n` is 64 or more. -/
def maskRight (n : Nat) : Word :=
  UInt64.ofBitVec ((BitVec.allOnes (min n wordBits)).setWidth 64)

/-- The `n` most significant bits set; all of them when `n` is 64 or more. -/
def maskLeft (n : Nat) : Word :=
  ~~~maskRight (wordBits - n)

def extract (word : Word) (field : BitField) : Word :=
  if field.width = 0 then 0
  else word >>> UInt64.ofNat field.below &&& maskRight field.width

/-- Replace a field by the low bits of `value`. -/
def deposit (word : Word) (field : BitField) (value : Word) : Word :=
  if field.width = 0 then word
  else
    let shift := UInt64.ofNat field.below
    let mask := maskRight field.width <<< shift
    word &&& ~~~mask ||| value <<< shift &&& mask

def fitsUnsigned (value : Word) (width : Nat) : Bool :=
  wordBits ≤ width || value ≤ maskRight width

/-- The two's complement number of a word. -/
def signed (value : Word) : Int :=
  value.toInt64.toInt

def fitsSigned (value : Word) (width : Nat) : Bool :=
  if wordBits ≤ width then true
  else if width = 0 then value == 0
  else
    let limit : Nat := 1 <<< (width - 1)
    value.signed < limit && -(limit : Int) ≤ value.signed

/-- Nothing is lost when `value` is cut to `width` bits and read back, signed or unsigned. -/
def fitsField (value : Word) (width : Nat) : Bool :=
  value.fitsUnsigned width || value.fitsSigned width

/-- Big-endian bytes of a word. -/
def bytes (word : Word) : List UInt8 :=
  [(word >>> 56).toUInt8, (word >>> 48).toUInt8, (word >>> 40).toUInt8, (word >>> 32).toUInt8,
    (word >>> 24).toUInt8, (word >>> 16).toUInt8, (word >>> 8).toUInt8, word.toUInt8]

def ofBytes (bytes : List UInt8) : Word :=
  bytes.foldl (fun word byte => word <<< 8 ||| byte.toUInt64) 0

/-- Bytes taken eight at a time, and those left over at the end. -/
def wordsOfBytes : List UInt8 → List Word × List UInt8
  | b0 :: b1 :: b2 :: b3 :: b4 :: b5 :: b6 :: b7 :: rest =>
    let (words, left) := wordsOfBytes rest
    (ofBytes [b0, b1, b2, b3, b4, b5, b6, b7] :: words, left)
  | left => ([], left)

end Word

end CrayAssembler
