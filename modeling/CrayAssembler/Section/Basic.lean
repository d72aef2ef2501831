import CrayAssembler.Section.Block

namespace CrayAssembler

structure Section where
  name : String
  type : SectionType
  residency : Residency
  /-- Words by which the section is displaced in an absolute module. -/
  originOffset : Nat
  /-- The section was placed by a statement. -/
  placed : Bool
  locationBits : Nat
  originBits : Nat
  /-- Where the first bits were placed. -/
  firstBits : Option Nat
  /-- The furthest that the origin counter has come. -/
  highBits : Nat
  block : ObjectBlock
deriving Inhabited

namespace Section

def make (name : String) (type : SectionType) (residency : Residency) : Section :=
  { name, type, residency
    originOffset := 0
    placed := false
    locationBits := 0
    originBits := 0
    firstBits := none
    highBits := 0
    block := .empty }

def locationParcel (sec : Section) : Nat :=
  sec.locationBits / parcelBits

def locationWord (sec : Section) : Nat :=
  sec.locationBits / wordBits

def originWord (sec : Section) : Nat :=
  sec.originBits / wordBits

/-- Bit position of the location counter in its word. -/
def wordBit (sec : Section) : Nat :=
  sec.locationBits % wordBits

/-- Bit position of the location counter in its parcel. -/
def parcelBit (sec : Section) : Nat :=
  sec.locationBits % parcelBits

/-- Count bits that are placed or reserved. -/
def advance (sec : Section) (bits : Nat) : Section :=
  if bits = 0 then sec
  else
    { sec with
      firstBits := some (sec.firstBits.getD sec.originBits)
      locationBits := sec.locationBits + bits
      originBits := sec.originBits + bits
      highBits := max sec.highBits (sec.originBits + bits) }

def setLocationWord (sec : Section) (word : Nat) : Section :=
  { sec with locationBits := word * wordBits }

/-- Set both counters. -/
def setOriginWord (sec : Section) (word : Nat) : Section :=
  { sec with
    originBits := word * wordBits
    locationBits := word * wordBits
    highBits := max sec.highBits (word * wordBits) }

/-- How far a bit position is ahead of another, in units of `size` bits. -/
def bitsAhead (size current bit : Nat) : Nat :=
  if current ≤ bit then bit - current else size - current + bit

/-- How far the counters must move to reach a bit of the current or the next word. -/
def bitsToReach (sec : Section) (bit : Nat) : Nat :=
  bitsAhead wordBits sec.wordBit bit

/-- Word address of the start of the contents. -/
def baseWord (sec : Section) : Nat :=
  match sec.firstBits with
  | some bits => bits / wordBits
  | none => sec.originOffset

/-- Number of words needed to hold the bits up to the furthest one. -/
def highWord (sec : Section) : Nat :=
  (sec.highBits + wordBits - 1) / wordBits

/-- Size in words from the base on. -/
def size (sec : Section) : Nat :=
  sec.highWord - sec.baseWord

/-- One past the last word of the section. -/
def endWord (sec : Section) : Nat :=
  max sec.highWord sec.originOffset

/-- Start again for the next pass: counters at the origin offset, nothing written. -/
def restart (sec : Section) : Section :=
  { sec with
    originBits := sec.originOffset * wordBits
    locationBits := sec.originOffset * wordBits
    firstBits := none
    highBits := sec.originOffset * wordBits
    block := .empty }

/-- Start again, if the bits before the origin offset do not run over. -/
def restart? (sec : Section) : Option Section :=
  (counted? (sec.originOffset * wordBits)).map fun _ => sec.restart

end Section

end CrayAssembler
