import CrayAssembler.Machine.Word

namespace CrayAssembler

namespace Word

/-- A bit of a word. -/
def bit (word : Word) (i : Nat) : Bool :=
  word.toBitVec.getMsbD i

theorem bit_of_le (word : Word) {i : Nat} (beyond : wordBits ≤ i) : word.bit i = false :=
  BitVec.getMsbD_of_ge _ _ beyond

theorem eq_of_bits {first second : Word} (same : ∀ i < wordBits, first.bit i = second.bit i) :
    first = second :=
  UInt64.toBitVec_inj.mp (BitVec.eq_of_getMsbD_eq fun i inside => same i inside)

@[simp] theorem bit_zero (i : Nat) : bit 0 i = false := by
  simp [bit]

@[simp] theorem bit_and (left right : Word) (i : Nat) :
    (left &&& right).bit i = (left.bit i && right.bit i) := by
  simp [bit]

@[simp] theorem bit_or (left right : Word) (i : Nat) :
    (left ||| right).bit i = (left.bit i || right.bit i) := by
  simp [bit]

theorem bit_not (word : Word) {i : Nat} (inside : i < wordBits) :
    (~~~word).bit i = !word.bit i := by
  unfold wordBits at inside
  simp [bit, inside]

theorem bit_shiftLeft (word : Word) {n : Nat} (short : n < wordBits) (i : Nat) :
    (word <<< UInt64.ofNat n).bit i = word.bit (i + n) := by
  unfold wordBits at short
  simp [bit, Nat.mod_eq_of_lt short]

theorem bit_shiftRight (word : Word) {n i : Nat} (short : n < wordBits) (inside : i < wordBits)
    (above : n ≤ i) : (word >>> UInt64.ofNat n).bit i = word.bit (i - n) := by
  unfold wordBits at short inside
  simp [bit, Nat.mod_eq_of_lt short, inside, Nat.not_lt.mpr above]

theorem bit_maskRight (n : Nat) {i : Nat} (inside : i < wordBits) :
    (maskRight n).bit i = decide (wordBits - n ≤ i) := by
  unfold wordBits at *
  rw [Bool.eq_iff_iff]
  simp only [bit, maskRight, wordBits, BitVec.getMsbD, BitVec.getLsbD_setWidth,
    BitVec.getLsbD_allOnes, inside, Bool.and_eq_true, decide_eq_true_eq, true_and]
  omega

/-- The bits of a field are replaced by the last ones of the value, and no others. -/
theorem bit_deposit (word : Word) (field : BitField) (value : Word) {i : Nat}
    (inside : i < wordBits) :
    (word.deposit field value).bit i =
      if field.start ≤ i ∧ i < field.start + field.width then value.bit (i + field.below)
      else word.bit i := by
  unfold deposit
  by_cases empty : field.width = 0
  · rw [if_pos empty, if_neg (by omega)]
  · have fits := field.inside
    have short : field.below < wordBits := by
      unfold BitField.below wordBits
      omega
    have mask : (maskRight field.width <<< UInt64.ofNat field.below).bit i =
        decide (field.start ≤ i ∧ i < field.start + field.width) := by
      rw [bit_shiftLeft _ short]
      by_cases within : i + field.below < wordBits
      · rw [bit_maskRight _ within, decide_eq_decide]
        unfold BitField.below at within ⊢
        omega
      · rw [bit_of_le _ (Nat.not_lt.mp within), eq_comm, decide_eq_false_iff_not]
        unfold BitField.below at within
        omega
    rw [if_neg empty]
    dsimp only
    rw [bit_or, bit_and, bit_not _ inside, bit_and, mask, bit_shiftLeft _ short]
    by_cases covered : field.start ≤ i ∧ i < field.start + field.width
    · simp [covered]
    · simp [covered]

/-- A field is moved to the end of a word. -/
theorem bit_extract (word : Word) (field : BitField) {i : Nat} (inside : i < wordBits) :
    (word.extract field).bit i =
      (decide (wordBits - field.width ≤ i) && word.bit (i - field.below)) := by
  unfold extract
  by_cases empty : field.width = 0
  · rw [if_pos empty, bit_zero, empty, Nat.sub_zero, decide_eq_false (Nat.not_le.mpr inside),
      Bool.false_and]
  · have fits := field.inside
    have short : field.below < wordBits := by
      unfold BitField.below wordBits
      omega
    rw [if_neg empty, bit_and, bit_maskRight _ inside, Bool.and_comm]
    by_cases last : wordBits - field.width ≤ i
    · have above : field.below ≤ i := by
        unfold BitField.below
        omega
      rw [bit_shiftRight _ short inside above]
    · rw [decide_eq_false last, Bool.false_and, Bool.false_and]

/-- What was put in a field is found there. -/
theorem extract_deposit (word : Word) (field : BitField) (value : Word) :
    (word.deposit field value).extract field = value &&& maskRight field.width := by
  have fits := field.inside
  refine eq_of_bits fun i inside => ?_
  rw [bit_extract _ _ inside, bit_and, bit_maskRight _ inside, Bool.and_comm]
  by_cases last : wordBits - field.width ≤ i
  · have place : i - field.below + field.below = i := by
      unfold BitField.below
      omega
    rw [bit_deposit _ _ _ (by omega), if_pos (by unfold BitField.below; omega), place]
  · rw [decide_eq_false last, Bool.and_false, Bool.and_false]

/-- To put back what a field holds changes nothing. -/
theorem deposit_extract (word : Word) (field : BitField) :
    word.deposit field (word.extract field) = word := by
  have fits := field.inside
  refine eq_of_bits fun i inside => ?_
  rw [bit_deposit _ _ _ inside]
  split
  case isTrue covered =>
    have room : i + field.below < wordBits := by
      unfold BitField.below
      omega
    have last : wordBits - field.width ≤ i + field.below := by
      unfold BitField.below
      omega
    rw [bit_extract _ _ room, decide_eq_true last, Bool.true_and, Nat.add_sub_cancel]
  case isFalse => rfl

end Word

end CrayAssembler
