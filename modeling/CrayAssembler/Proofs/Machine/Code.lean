import CrayAssembler.Machine.Instruction
import CrayAssembler.Machine.Word
import Mathlib.Algebra.Group.Int.Defs
import Mathlib.Algebra.Group.Nat.Defs

namespace CrayAssembler

namespace Text

theorem ofDigitChars_octal (width n : Nat) :
    Nat.ofDigitChars 8 (octal width n).toList 0 = n := by
  rw [octal, padLeft, digits, String.toList_append, String.toList_ofList, String.toList_ofList,
    Nat.ofDigitChars_append, Nat.ofDigitChars_replicate_zero, Nat.mul_zero,
    Nat.ofDigitChars_toDigits (by decide) (by decide)]

theorem octal_inj {width n m : Nat} (same : octal width n = octal width m) : n = m := by
  rw [← ofDigitChars_octal width n, same, ofDigitChars_octal]

/-- A number that has no more digits than the width is brought to it. -/
theorem length_octal {width n : Nat} (positive : 0 < width) (fits : n < 8 ^ width) :
    (octal width n).toList.length = width := by
  have short := (Nat.length_toDigits_le_iff (by decide : 1 < 8) positive).mpr fits
  rw [octal, padLeft, digits, String.toList_append, String.toList_ofList, String.toList_ofList,
    List.length_append, List.length_replicate, String.length_ofList]
  omega

end Text

namespace Word

theorem toNat_maskRight {n : Nat} (narrow : n ≤ wordBits) : (maskRight n).toNat = 2 ^ n - 1 := by
  unfold wordBits at narrow
  have bound : 2 ^ n ≤ 2 ^ 64 := Nat.pow_le_pow_right (by decide) narrow
  rw [maskRight, wordBits, Nat.min_eq_left narrow, UInt64.toNat_ofBitVec, BitVec.toNat_setWidth,
    BitVec.toNat_allOnes]
  exact Nat.mod_eq_of_lt (by omega)

theorem fitsUnsigned_iff (word : Word) {width : Nat} (narrow : width < wordBits) :
    word.fitsUnsigned width = true ↔ word.toNat < 2 ^ width := by
  have positive : 0 < 2 ^ width := Nat.two_pow_pos width
  rw [fitsUnsigned, decide_eq_false (Nat.not_le.mpr narrow), Bool.false_or, decide_eq_true_iff,
    UInt64.le_iff_toNat_le, toNat_maskRight (Nat.le_of_lt narrow)]
  omega

/-- Words of which the first bit is set stand for negative numbers. -/
theorem signed_eq (word : Word) :
    word.signed = if word.toNat < 2 ^ 63 then (word.toNat : Int) else word.toNat - 2 ^ 64 := by
  change word.toBitVec.toInt = _
  rw [BitVec.toInt_eq_toNat_cond, UInt64.toNat_toBitVec]
  split
  case isTrue small => rw [if_pos (by omega)]
  case isFalse large =>
    rw [if_neg (by omega)]
    rfl

theorem toNat_not (word : Word) : (~~~word).toNat = 2 ^ 64 - 1 - word.toNat :=
  UInt64.toNat_not word

/-- Either reading of a word fits in the bits of a field. -/
theorem fitsField_iff (word : Word) {width : Nat} (narrow : width < wordBits)
    (positive : 0 < width) :
    word.fitsField width = true ↔ word.toNat < 2 ^ width ∨
      word.signed < 2 ^ (width - 1) ∧ -2 ^ (width - 1) ≤ word.signed := by
  have limit : ((1 <<< (width - 1) : Nat) : Int) = 2 ^ (width - 1) := by
    rw [Nat.shiftLeft_eq, Nat.one_mul]
    exact Int.natCast_pow 2 (width - 1)
  rw [fitsField, Bool.or_eq_true, fitsUnsigned_iff word narrow, fitsSigned,
    if_neg (Nat.not_le.mpr narrow), if_neg (Nat.ne_of_gt positive)]
  dsimp only
  rw [limit, Bool.and_eq_true, decide_eq_true_iff, decide_eq_true_iff]

/-- The bits of a field give a word back, if they are taken for those of a number with or without a
sign. -/
def Regains {width : Nat} (stored : BitVec width) (word : Word) : Prop :=
  stored.setWidth 64 = word.toBitVec ∨ stored.signExtend 64 = word.toBitVec

instance {width : Nat} (stored : BitVec width) (word : Word) : Decidable (Regains stored word) :=
  inferInstanceAs (Decidable (_ ∨ _))

theorem setWidth_regains_iff (word : Word) (width : Nat) :
    (word.toBitVec.setWidth width).setWidth 64 = word.toBitVec ↔ word.toNat < 2 ^ width := by
  have bound := word.toNat_lt
  rw [← BitVec.toNat_inj, BitVec.toNat_setWidth, BitVec.toNat_setWidth, UInt64.toNat_toBitVec]
  constructor
  · intro same
    rw [← same]
    exact Nat.lt_of_le_of_lt (Nat.mod_le _ _) (Nat.mod_lt _ (Nat.two_pow_pos width))
  · intro small
    rw [Nat.mod_eq_of_lt small]
    exact Nat.mod_eq_of_lt bound

theorem signExtend_regains_iff (word : Word) {width : Nat} (positive : 0 < width)
    (narrow : width ≤ wordBits) :
    (word.toBitVec.setWidth width).signExtend 64 = word.toBitVec ↔
      word.signed < 2 ^ (width - 1) ∧ -2 ^ (width - 1) ≤ word.signed := by
  have half : (2 ^ width : Nat) = 2 * 2 ^ (width - 1) := by
    rw [← Nat.pow_succ', Nat.succ_eq_add_one, Nat.sub_add_cancel positive]
  have divides : ((2 ^ width : Nat) : Int) ∣ word.signed - word.toNat := by
    have whole : ((2 ^ width : Nat) : Int) ∣ ((2 ^ 64 : Nat) : Int) :=
      Int.natCast_dvd_natCast.mpr (Nat.pow_dvd_pow 2 narrow)
    rw [signed_eq]
    split
    · rw [Int.sub_self]
      exact Int.dvd_zero _
    · have apart : (word.toNat : Int) - 2 ^ 64 - word.toNat = -((2 ^ 64 : Nat) : Int) := by omega
      rw [apart]
      exact Int.dvd_neg.mpr whole
  rw [← BitVec.toInt_inj, BitVec.toInt_signExtend_of_le (show width ≤ 64 from narrow),
    BitVec.toInt_setWidth,
    UInt64.toNat_toBitVec, Int.bmod_eq_iff (Nat.two_pow_pos width)]
  change _ ≤ word.signed ∧ word.signed < _ ∧ _ ∣ word.signed - _ ↔ _
  have power : ((2 ^ (width - 1) : Nat) : Int) = 2 ^ (width - 1) := Int.natCast_pow 2 (width - 1)
  simp only [divides, and_true]
  rw [half, ← power]
  omega

/-- A number fits in a field exactly if it is got back from it. -/
theorem fitsField_iff_regains (word : Word) {width : Nat} (narrow : width ≤ wordBits) :
    word.fitsField width ↔ Regains (word.toBitVec.setWidth width) word := by
  rcases Nat.eq_zero_or_pos width with rfl | positive
  · have nothing : word.fitsField 0 ↔ word.toNat < 2 ^ 0 := by
      rw [fitsField, Bool.or_eq_true, fitsUnsigned_iff word (by decide), fitsSigned,
        if_neg (by decide), if_pos rfl, beq_iff_eq, ← UInt64.toNat_inj]
      change _ ∨ word.toNat = 0 ↔ _
      omega
    have same : (word.toBitVec.setWidth 0).signExtend 64 = (word.toBitVec.setWidth 0).setWidth 64 := by
      rw [BitVec.eq_nil (word.toBitVec.setWidth 0)]
      rfl
    rw [nothing, Regains, same, or_self, setWidth_regains_iff]
  rcases Nat.lt_or_eq_of_le narrow with short | rfl
  · rw [fitsField_iff word short positive, Regains, setWidth_regains_iff,
      signExtend_regains_iff word positive narrow]
  · have whole : word.fitsField wordBits = true := by simp [fitsField, fitsUnsigned]
    rw [whole]
    exact iff_of_true rfl (.inl rfl)

end Word

namespace Instruction

theorem toNat_ghIjk (gh ijk : Nat) :
    (ghIjk gh ijk).toNat = gh % 0o200 * 0o1000 + ijk % 0o1000 := by
  rw [ghIjk, UInt16.toNat_ofNat']
  omega

/-- The fields of a parcel stand in their places. -/
theorem parts_ghIJk (gh i jk : Nat) :
    parts (ghIJk gh i jk) = ⟨gh % 0o200, i % 8, jk / 8 % 8, jk % 8⟩ := by
  have number : (ghIJk gh i jk).toNat = gh % 0o200 * 0o1000 + (i % 8 * 0o100 + jk % 0o100) := by
    rw [ghIJk, toNat_ghIjk]
    omega
  rw [parts, number, Parts.mk.injEq]
  omega

theorem toNat_ghIJkm (gh i jkm : Nat) :
    (ghIJkm gh i jkm).toNat = gh % 0o200 * 2 ^ 25 + i % 8 * 2 ^ 22 + jkm % 2 ^ 22 := by
  rw [ghIJkm, ghIjkm, UInt32.toNat_ofNat']
  simp only [ijkmBits, jkmBits, Nat.shiftLeft_eq, Nat.one_mul]
  omega

/-- The first parcel of a pair. -/
def first (pair : ParcelPair) : Parcel :=
  (pair >>> 16).toUInt16

theorem toNat_first (pair : ParcelPair) : (first pair).toNat = pair.toNat / 2 ^ 16 := by
  have bound := pair.toNat_lt
  rw [first, UInt32.toNat_toUInt16, UInt32.toNat_shiftRight]
  change pair.toNat >>> 16 % 2 ^ 16 = _
  rw [Nat.shiftRight_eq_div_pow]
  omega

theorem parts_first (gh i jkm : Nat) :
    parts (first (ghIJkm gh i jkm)) =
      ⟨gh % 0o200, i % 8, jkm / 2 ^ 19 % 8, jkm / 2 ^ 16 % 8⟩ := by
  rw [parts, toNat_first, toNat_ghIJkm, Parts.mk.injEq]
  omega

theorem second_ghIJkm (gh i jkm : Nat) : (ghIJkm gh i jkm).toUInt16.toNat = jkm % 2 ^ 16 := by
  rw [UInt32.toNat_toUInt16, toNat_ghIJkm]
  omega

theorem toNat_of_parts (parcel : Parcel) :
    parcel.toNat = (parts parcel).gh * 0o1000 + (parts parcel).i * 0o100 + (parts parcel).j * 8 +
      (parts parcel).k := by
  simp only [parts]
  omega

theorem gh_of_ghIJk {gh gh' i n m : Nat} (same : ghIJk gh i n = ghIJk gh' i m) :
    gh % 0o200 = gh' % 0o200 := by
  have fields := congrArg (fun parcel => (parts parcel).gh) same
  rwa [parts_ghIJk, parts_ghIJk] at fields

theorem gh_of_ghIJkm {gh gh' i n m : Nat} (same : ghIJkm gh i n = ghIJkm gh' i m) :
    gh % 0o200 = gh' % 0o200 := by
  have fields := congrArg (fun pair => (parts (first pair)).gh) same
  rwa [parts_first, parts_first] at fields

/-- Six bits tell all numbers up to 64 apart but 0 and 64. -/
theorem ghIJk_inj {gh i n m : Nat} (inside : n ≤ 64) (inside' : m ≤ 64)
    (same : ghIJk gh i n = ghIJk gh i m) : n = m ∨ n = 0 ∧ m = 64 ∨ n = 64 ∧ m = 0 := by
  have fields := congrArg parts same
  rw [parts_ghIJk, parts_ghIJk, Parts.mk.injEq] at fields
  omega

theorem ghIJkm_inj {gh i n m : Nat} (fits : n < 2 ^ 22) (fits' : m < 2 ^ 22)
    (same : ghIJkm gh i n = ghIJkm gh i m) : n = m := by
  have numbers := congrArg UInt32.toNat same
  rw [toNat_ghIJkm, toNat_ghIJkm] at numbers
  omega

section Text

open Text

theorem toList_render (parcel : Parcel) :
    (render parcel).toList = (octal 3 (parts parcel).gh).toList ++ ((octal 1 (parts parcel).i).toList ++
      ((octal 1 (parts parcel).j).toList ++ (octal 1 (parts parcel).k).toList)) := by
  simp only [render, String.toList_append, List.append_assoc]

theorem length_parts (parcel : Parcel) :
    (octal 3 (parts parcel).gh).toList.length = 3 ∧ (octal 1 (parts parcel).i).toList.length = 1 ∧
      (octal 1 (parts parcel).j).toList.length = 1 ∧
      (octal 1 (parts parcel).k).toList.length = 1 := by
  have bound := parcel.toNat_lt
  simp only [parts]
  exact ⟨length_octal (by decide) (by omega), length_octal (by decide) (by omega),
    length_octal (by decide) (by omega), length_octal (by decide) (by omega)⟩

theorem length_render (parcel : Parcel) : (render parcel).toList.length = 6 := by
  obtain ⟨gh, i, j, k⟩ := length_parts parcel
  rw [toList_render, List.length_append, List.length_append, List.length_append, gh, i, j, k]

/-- The text of a parcel tells it apart from all others. -/
theorem render_inj {one other : Parcel} (same : render one = render other) : one = other := by
  obtain ⟨gh, i, j, -⟩ := length_parts one
  obtain ⟨gh', i', j', -⟩ := length_parts other
  have lists := congrArg String.toList same
  rw [toList_render, toList_render] at lists
  obtain ⟨sameGh, lists⟩ := List.append_inj lists (gh.trans gh'.symm)
  obtain ⟨sameI, lists⟩ := List.append_inj lists (i.trans i'.symm)
  obtain ⟨sameJ, sameK⟩ := List.append_inj lists (j.trans j'.symm)
  apply UInt16.toNat_inj.mp
  rw [toNat_of_parts one, toNat_of_parts other, octal_inj (String.toList_inj.mp sameGh),
    octal_inj (String.toList_inj.mp sameI), octal_inj (String.toList_inj.mp sameJ),
    octal_inj (String.toList_inj.mp sameK)]

end Text

/-- The code of one instruction. -/
inductive Code where
  | short (parcel : Parcel)
  | long (pair : ParcelPair)
deriving DecidableEq, Repr

namespace Code

/-- Code as it is shown beside a statement. -/
def text : Code → String
  | short parcel => render parcel
  | long pair => render (first pair) ++ " " ++ Text.octal 6 pair.toUInt16.toNat

/-- The text of an instruction tells it apart from all others. -/
theorem text_inj {one other : Code} (same : one.text = other.text) : one = other := by
  have lists := congrArg String.toList same
  cases one with
  | short parcel =>
    cases other with
    | short parcel' => exact congrArg short (render_inj same)
    | long pair =>
      have lengths := congrArg List.length lists
      simp only [text, String.toList_append, List.length_append, length_render,
        String.reduceToList, List.length_singleton] at lengths
      omega
  | long pair =>
    cases other with
    | short parcel =>
      have lengths := congrArg List.length lists
      simp only [text, String.toList_append, List.length_append, length_render,
        String.reduceToList, List.length_singleton] at lengths
      omega
    | long pair' =>
      simp only [text, String.toList_append, List.append_assoc] at lists
      obtain ⟨head, lists⟩ := List.append_inj lists
        ((length_render _).trans (length_render _).symm)
      have high := congrArg UInt16.toNat (render_inj (String.toList_inj.mp head))
      have low := Text.octal_inj (String.toList_inj.mp (List.append_cancel_left lists))
      rw [toNat_first, toNat_first] at high
      rw [UInt32.toNat_toUInt16, UInt32.toNat_toUInt16] at low
      exact congrArg long (UInt32.toNat_inj.mp (by omega))

/-- The register that a load of an A register changes, and the number that it leaves there: `jk`, or
`jkm` as it stands or complemented. -/
def loadedA? : Code → Option (Nat × Int)
  | short parcel =>
    let p := parts parcel
    if p.gh = 0o022 then some (p.i, (p.j * 8 + p.k : Nat)) else none
  | long pair =>
    let p := parts (first pair)
    let jkm : Nat := (p.j * 8 + p.k) * 2 ^ 16 + pair.toUInt16.toNat
    if p.gh = 0o020 then some (p.i, jkm)
    else if p.gh = 0o021 then some (p.i, -jkm - 1)
    else none

theorem loadedA?_small (i : Nat) {n : Nat} (small : n < 2 ^ 6) :
    (short (ghIJk 0o022 i n)).loadedA? = some (i % 8, (n : Int)) := by
  have number : n / 8 % 8 * 8 + n % 8 = n := by omega
  simp only [loadedA?, parts_ghIJk, Nat.reduceMod, if_true, number]

theorem jkm_ghIJkm (gh i n : Nat) :
    (n / 2 ^ 19 % 8 * 8 + n / 2 ^ 16 % 8) * 2 ^ 16 + (ghIJkm gh i n).toUInt16.toNat =
      n % 2 ^ 22 := by
  rw [second_ghIJkm]
  omega

theorem loadedA?_plain (i n : Nat) :
    (long (ghIJkm 0o020 i n)).loadedA? = some (i % 8, ((n % 2 ^ 22 : Nat) : Int)) := by
  simp only [loadedA?, parts_first, jkm_ghIJkm, Nat.reduceMod, if_true]

theorem loadedA?_complement (i n : Nat) :
    (long (ghIJkm 0o021 i n)).loadedA? = some (i % 8, -((n % 2 ^ 22 : Nat) : Int) - 1) := by
  simp only [loadedA?, parts_first, jkm_ghIJkm, Nat.reduceMod, if_true]
  rfl

end Code

end Instruction

end CrayAssembler
