import CrayAssembler.Machine.Characters
import CrayAssembler.Text.Blank
import Mathlib.Algebra.Group.Nat.Defs

namespace CrayAssembler

namespace Word

theorem toNat_ofNat_of_lt {n : Nat} (small : n < 2 ^ 64) : (UInt64.ofNat n).toNat = n := by
  rw [UInt64.toNat_ofNat', Nat.mod_eq_of_lt small]

theorem or_and (left right mask : Word) :
    (left ||| right) &&& mask = left &&& mask ||| right &&& mask :=
  UInt64.toBitVec_inj.mp BitVec.and_or_distrib_right

/-- A mask of ones at the right takes the remainder. -/
theorem toNat_and_mask (word : Word) {mask : Word} {n : Nat} (ones : mask.toNat = 2 ^ n - 1) :
    (word &&& mask).toNat = word.toNat % 2 ^ n := by
  rw [UInt64.toNat_and, ones, Nat.and_two_pow_sub_one_eq_mod]

/-- A mask meets nothing in a number that lies below it. -/
theorem and_eq_zero_of_lt {word mask : Word} {high n : Nat} (above : mask.toNat = high * 2 ^ n)
    (small : word.toNat < 2 ^ n) : word &&& mask = 0 := by
  apply UInt64.toNat_inj.mp
  apply Nat.eq_of_testBit_eq
  intro i
  rw [UInt64.toNat_and, Nat.testBit_and, above, Nat.testBit_mul_two_pow]
  by_cases low : n ≤ i
  · have bound : 2 ^ n ≤ 2 ^ i := Nat.pow_le_pow_right (by decide) low
    rw [Nat.testBit_lt_two_pow (Nat.lt_of_lt_of_le small bound)]
    simp
  · simp [low]

/-- Below a number that was shifted to the left there is room for another one. -/
theorem toNat_shiftLeft_or (high low shift : Word) (within : shift.toNat < 64)
    (fits : low.toNat < 2 ^ shift.toNat) :
    (high <<< shift ||| low).toNat = high.toNat * 2 ^ shift.toNat % 2 ^ 64 + low.toNat := by
  have split : 2 ^ 64 = 2 ^ shift.toNat * 2 ^ (64 - shift.toNat) := by
    rw [← Nat.pow_add]
    congr 1
    omega
  have shifted : (high <<< shift).toNat =
      2 ^ shift.toNat * (high.toNat % 2 ^ (64 - shift.toNat)) := by
    rw [UInt64.toNat_shiftLeft, Nat.mod_eq_of_lt within, Nat.shiftLeft_eq, Nat.mul_comm, split,
      Nat.mul_mod_mul_left]
  rw [UInt64.toNat_or, shifted, ← Nat.two_pow_add_eq_or_of_lt fits, Nat.mul_comm high.toNat, split,
    Nat.mul_mod_mul_left]

theorem toNat_shiftIn (word : Word) (byte : UInt8) :
    (word <<< 8 ||| byte.toUInt64).toNat = word.toNat * 256 % 2 ^ 64 + byte.toNat := by
  have low : byte.toUInt64.toNat < 2 ^ 8 := by
    rw [UInt8.toNat_toUInt64]
    exact byte.toNat_lt
  rw [toNat_shiftLeft_or word byte.toUInt64 8 (by decide) low, UInt8.toNat_toUInt64]
  rfl

theorem toNat_ofBytes (b0 b1 b2 b3 b4 b5 b6 b7 : UInt8) :
    (ofBytes [b0, b1, b2, b3, b4, b5, b6, b7]).toNat =
      b0.toNat * 2 ^ 56 + b1.toNat * 2 ^ 48 + b2.toNat * 2 ^ 40 + b3.toNat * 2 ^ 32 +
        b4.toNat * 2 ^ 24 + b5.toNat * 2 ^ 16 + b6.toNat * 2 ^ 8 + b7.toNat := by
  have := b0.toNat_lt
  have := b1.toNat_lt
  have := b2.toNat_lt
  have := b3.toNat_lt
  have := b4.toNat_lt
  have := b5.toNat_lt
  have := b6.toNat_lt
  have := b7.toNat_lt
  simp only [ofBytes, List.foldl_cons, List.foldl_nil, toNat_shiftIn, UInt64.toNat_zero]
  omega

theorem toNat_byteAt (word shift : Word) (small : shift.toNat < 64) :
    (word >>> shift).toUInt8.toNat = word.toNat / 2 ^ shift.toNat % 256 := by
  rw [UInt64.toNat_toUInt8, UInt64.toNat_shiftRight, Nat.mod_eq_of_lt small,
    Nat.shiftRight_eq_div_pow]

theorem ofBytes_bytes (word : Word) : ofBytes word.bytes = word := by
  apply UInt64.toNat_inj.mp
  have := word.toNat_lt
  rw [bytes, toNat_ofBytes, UInt64.toNat_toUInt8]
  repeat rw [toNat_byteAt _ _ (by decide)]
  simp
  omega

theorem bytes_ofBytes (b0 b1 b2 b3 b4 b5 b6 b7 : UInt8) :
    (ofBytes [b0, b1, b2, b3, b4, b5, b6, b7]).bytes = [b0, b1, b2, b3, b4, b5, b6, b7] := by
  have := b0.toNat_lt
  have := b1.toNat_lt
  have := b2.toNat_lt
  have := b3.toNat_lt
  have := b4.toNat_lt
  have := b5.toNat_lt
  have := b6.toNat_lt
  have := b7.toNat_lt
  simp only [bytes, List.cons.injEq, and_true, ← UInt8.toNat_inj, UInt64.toNat_toUInt8,
    UInt64.toNat_shiftRight, Nat.shiftRight_eq_div_pow, toNat_ofBytes]
  simp
  omega

/-- Words are divided out of their bytes again, and nothing is left over. -/
theorem wordsOfBytes_flatMap_bytes (words : List Word) :
    wordsOfBytes (words.flatMap bytes) = (words, []) := by
  induction words with
  | nil => rfl
  | cons word rest ih =>
    have first : ofBytes [(word >>> 56).toUInt8, (word >>> 48).toUInt8, (word >>> 40).toUInt8,
        (word >>> 32).toUInt8, (word >>> 24).toUInt8, (word >>> 16).toUInt8, (word >>> 8).toUInt8,
        word.toUInt8] = word := ofBytes_bytes word
    simp only [List.flatMap_cons, bytes, List.cons_append, List.nil_append, wordsOfBytes]
    rw [first, ih]

/-- Whole words hold all of the bytes that they were made of. -/
theorem flatMap_bytes_wordsOfBytes (whole : List UInt8) (multiple : whole.length % 8 = 0) :
    (wordsOfBytes whole).1.flatMap bytes = whole := by
  fun_induction wordsOfBytes whole with
  | case1 b0 b1 b2 b3 b4 b5 b6 b7 rest words left found ih =>
    have shorter : rest.length % 8 = 0 := by
      simp only [List.length_cons] at multiple
      omega
    rw [found] at ih
    rw [List.flatMap_cons, bytes_ofBytes, ih shorter]
    rfl
  | case2 left few =>
    match left, few with
    | [], _ => rfl
    | [_], _ | [_, _], _ | [_, _, _], _ | [_, _, _, _], _ | [_, _, _, _, _], _
    | [_, _, _, _, _, _], _ | [_, _, _, _, _, _, _], _ => simp at multiple
    | _ :: _ :: _ :: _ :: _ :: _ :: _ :: _ :: _, few => exact (few _ _ _ _ _ _ _ _ _ rfl).elim

end Word

namespace Text

theorem ofBytes?_bytes (text : String) : ofBytes? (bytes text.toList) = some text := by
  have encoded : (⟨(bytes text.toList).toArray⟩ : ByteArray) = text.toByteArray := by
    rw [← String.utf8Encode_toList]
    apply ByteArray.ext
    simp [bytes, List.utf8Encode]
  rw [ofBytes?, encoded, String.fromUTF8?, dif_pos text.isValidUTF8]
  rfl

end Text

namespace Characters

/-- Character positions that a field takes, with the zero that the justification asks for. -/
def positions (length : Nat) : Justification → Nat
  | .zeroEnd => length + 1
  | _ => length

theorem length_kept (chars : List UInt8) (length : Nat) (justification : Justification) :
    (chars.take length).length ≤ positions length justification := by
  have kept : (chars.take length).length ≤ length := List.length_take_le ..
  cases justification <;> simp only [positions] <;> omega

/-- A field is the text as far as it fits, and then nothing but fill. -/
theorem field_eq (chars : List UInt8) (length : Nat) (justification : Justification) :
    field chars length justification = chars.take length ++ List.replicate
      (positions length justification - (chars.take length).length) justification.fill := by
  cases justification with
  | zeroEnd =>
    have kept : (chars.take length).length ≤ length := List.length_take_le ..
    have one_more : positions length .zeroEnd - (chars.take length).length =
        length - (chars.take length).length + 1 := by
      rw [positions]
      omega
    rw [one_more, List.replicate_succ', ← List.append_assoc]
    rfl
  | leftBlank | leftZero | rightZero => exact List.append_nil _

theorem length_field (chars : List UInt8) (length : Nat) (justification : Justification) :
    (field chars length justification).length = positions length justification := by
  have kept := length_kept chars length justification
  rw [field_eq, List.length_append, List.length_replicate]
  omega

/-- A field is filled up to whole words. -/
theorem length_layOut (chars : List UInt8) (length : Nat) (justification : Justification) :
    (layOut chars length justification).length =
      8 * ((positions length justification + 7) / 8) := by
  have filled : (layOut chars length justification).length =
      (field chars length justification).length +
        (8 - (field chars length justification).length % 8) % 8 := by
    have commuted := Nat.add_comm ((8 - (field chars length justification).length % 8) % 8)
    cases justification <;>
      simp only [layOut, charsPerWord, List.length_append, List.length_replicate, commuted]
  have rounded (n : Nat) : n + (8 - n % 8) % 8 = 8 * ((n + 7) / 8) := by omega
  rw [filled, length_field, rounded]

theorem take_layOut_leftZero (chars : List UInt8) :
    (layOut chars chars.length .leftZero).take chars.length = chars := by
  simp [layOut, field]

theorem flatMap_bytes_pack (chars : List UInt8) (length : Nat) (justification : Justification) :
    (pack chars length justification).flatMap Word.bytes = layOut chars length justification := by
  apply Word.flatMap_bytes_wordsOfBytes
  rw [length_layOut]
  omega

theorem length_flatMap_bytes (words : List Word) :
    (words.flatMap Word.bytes).length = words.length * 8 := by
  induction words with
  | nil => rfl
  | cons word rest ih =>
    rw [List.flatMap_cons, List.length_append, ih, List.length_cons]
    simp only [Word.bytes, List.length_cons, List.length_nil]
    omega

theorem length_pack (chars : List UInt8) (length : Nat) (justification : Justification) :
    (pack chars length justification).length = (positions length justification + 7) / 8 := by
  have bytes := congrArg List.length (flatMap_bytes_pack chars length justification)
  rw [length_flatMap_bytes, length_layOut] at bytes
  omega

/-- A text packed into words is what their first bytes are. -/
theorem take_flatMap_bytes_pack (chars : List UInt8) :
    ((pack chars chars.length .leftZero).flatMap Word.bytes).take chars.length = chars := by
  rw [flatMap_bytes_pack, take_layOut_leftZero]

end Characters

end CrayAssembler
