import CrayAssembler.Machine.Word
import CrayAssembler.Text.Digits

namespace CrayAssembler

/-- Two parcels that form one instruction. -/
abbrev ParcelPair := UInt32

namespace Instruction

def jkmBits : Nat := 22

def ijkmBits : Nat := 25

def ghIjk (gh ijk : Nat) : Parcel :=
  UInt16.ofNat (gh % 0o200 * 0o1000 + ijk % 0o1000)

def ghIJK (gh i j k : Nat) : Parcel :=
  ghIjk gh (i % 8 * 0o100 + j % 8 * 8 + k % 8)

def ghIJk (gh i jk : Nat) : Parcel :=
  ghIjk gh (i % 8 * 0o100 + jk % 0o100)

def ghIjkm (gh ijkm : Nat) : ParcelPair :=
  UInt32.ofNat ((gh % 0o200) <<< ijkmBits + ijkm % (1 <<< ijkmBits))

def ghIJkm (gh i jkm : Nat) : ParcelPair :=
  ghIjkm gh ((i % 8) <<< jkmBits + jkm % (1 <<< jkmBits))

/-- The opcode is split: `h` names the index register of a memory reference. -/
def gHIJkm (g h i jkm : Nat) : ParcelPair :=
  ghIJkm (g % 16 * 8 + h % 8) i jkm

/-- The fields `gh`, `i`, `j` and `k` of a parcel. -/
structure Parts where
  gh : Nat
  i : Nat
  j : Nat
  k : Nat
deriving DecidableEq, Repr

def parts (parcel : Parcel) : Parts :=
  let n := parcel.toNat
  ⟨n / 0o1000, n / 0o100 % 8, n / 8 % 8, n % 8⟩

/-- A parcel in octal, grouped as `gh`, `i`, `j`, `k`. -/
def render (parcel : Parcel) : String :=
  let p := parts parcel
  Text.octal 3 p.gh ++ Text.octal 1 p.i ++ Text.octal 1 p.j ++ Text.octal 1 p.k

end Instruction

end CrayAssembler
