import CrayAssembler.Proofs.Machine.Packing

namespace CrayAssembler

namespace Characters

/-- A field on the left is its text and fill up to the end of the last word. -/
theorem layOut_left (chars : List UInt8) (length : Nat) {justification : Justification}
    (left : justification ≠ .rightZero) :
    layOut chars length justification = chars.take length ++ List.replicate
      (8 * ((positions length justification + 7) / 8) - (chars.take length).length)
        justification.fill := by
  have kept := length_kept chars length justification
  have size : 8 * ((positions length justification + 7) / 8) - (chars.take length).length =
      positions length justification - (chars.take length).length +
        (charsPerWord - positions length justification % charsPerWord) % charsPerWord := by
    unfold charsPerWord
    omega
  rw [size, ← List.replicate_append_replicate, ← List.append_assoc, ← field_eq]
  cases justification with
  | rightZero => exact absurd rfl left
  | leftBlank | leftZero | zeroEnd => simp only [layOut, length_field]

/-- A field on the right stands behind zeros, but its own fill comes after its text. -/
theorem layOut_right (chars : List UInt8) (length : Nat) :
    layOut chars length .rightZero = List.replicate (8 * ((length + 7) / 8) - length) 0 ++
      (chars.take length ++ List.replicate (length - (chars.take length).length) 0) := by
  have size : 8 * ((length + 7) / 8) - length =
      (charsPerWord - length % charsPerWord) % charsPerWord := by
    unfold charsPerWord
    omega
  rw [size, layOut, length_field, field_eq]
  rfl

/-- Zeros can change places with a text only if the text is made of zeros too. -/
theorem swapped_iff (chars : List UInt8) (count : Nat) :
    chars ++ List.replicate count 0 = List.replicate count 0 ++ chars ↔
      count = 0 ∨ ∀ char ∈ chars, char = 0 := by
  constructor
  · intro swapped
    rcases Nat.eq_zero_or_pos count with none | positive
    · exact .inl none
    refine .inr fun char member => ?_
    obtain ⟨i, inside, rfl⟩ := List.mem_iff_getElem.mp member
    -- Every character is a zero or the one that stands `count` places before it.
    induction i using Nat.strongRecOn with
    | ind i ih =>
      have same : (chars ++ List.replicate count 0)[i]? = (List.replicate count 0 ++ chars)[i]? :=
        congrArg (·[i]?) swapped
      rw [List.getElem?_append_left inside, List.getElem?_eq_getElem inside] at same
      by_cases before : i < count
      · rw [List.getElem?_append_left (by simpa using before), List.getElem?_replicate,
          if_pos before] at same
        exact Option.some.inj same
      · have earlier : i - count < chars.length := by omega
        rw [List.getElem?_append_right (by simpa using before), List.length_replicate,
          List.getElem?_eq_getElem earlier] at same
        exact (Option.some.inj same).trans
          (ih (i - count) (by omega) earlier (List.getElem_mem earlier))
  · rintro (rfl | zeros)
    · exact List.append_nil chars
    · rw [List.eq_replicate_of_mem zeros, List.replicate_append_replicate,
        List.replicate_append_replicate, Nat.add_comm]

/-- On the right the characters are at the very end if they fill the field, or if nothing tells them
from its fill. -/
theorem layOut_right_iff (chars : List UInt8) (length : Nat) :
    layOut chars length .rightZero =
        List.replicate (8 * ((length + 7) / 8) - (chars.take length).length) 0 ++ chars.take length ↔
      length ≤ chars.length ∨ ∀ char ∈ chars, char = 0 := by
  have kept : (chars.take length).length = min length chars.length := List.length_take
  have split : 8 * ((length + 7) / 8) - (chars.take length).length =
      8 * ((length + 7) / 8) - length + (length - (chars.take length).length) := by
    omega
  rw [layOut_right, split, ← List.replicate_append_replicate, List.append_assoc,
    List.append_cancel_left_eq, swapped_iff]
  by_cases fills : length ≤ chars.length
  · have full : length - (chars.take length).length = 0 := by omega
    simp only [full, fills, true_or]
  · have short : length - (chars.take length).length ≠ 0 := by omega
    have all : chars.take length = chars := List.take_of_length_le (by omega)
    rw [all] at short ⊢
    simp only [short, fills, false_or]

/-- Characters stand where their justification says, except that on the right a text shorter than
its field does not reach the end. The words hold the field, with the extra zero if there is one,
rounded up to whole words. On the left the first characters that fit come first and all else is fill,
of which the extra zero is a part. On the right they stand behind the zeros that fill up the words but
before those that fill up the field, so that they are at the very end exactly when the text fills the
field or is made of zeros itself. -/
theorem bytes_pack (chars : List UInt8) (length : Nat) (justification : Justification) :
    let words := pack chars length justification
    let kept := chars.take length
    let free := 8 * words.length - kept.length
    words.length = (positions length justification + 7) / 8 ∧
    match justification with
    | .rightZero =>
      words.flatMap Word.bytes = List.replicate (8 * words.length - length) 0 ++
        (kept ++ List.replicate (length - kept.length) 0) ∧
      (words.flatMap Word.bytes = List.replicate free 0 ++ kept ↔
        length ≤ chars.length ∨ ∀ char ∈ chars, char = 0)
    | left =>
      words.flatMap Word.bytes = kept ++ List.replicate free left.fill ∧
      positions length left ≤ 8 * words.length := by
  intro words kept free
  have size : words.length = (positions length justification + 7) / 8 := length_pack ..
  refine ⟨size, ?_⟩
  have room : positions length justification ≤ 8 * words.length := by omega
  have bytes : words.flatMap Word.bytes = layOut chars length justification :=
    flatMap_bytes_pack ..
  rw [bytes]
  dsimp only [free]
  rw [size] at room ⊢
  cases justification with
  | rightZero => exact ⟨layOut_right chars length, layOut_right_iff chars length⟩
  | leftBlank | leftZero | zeroEnd => exact ⟨layOut_left chars length nofun, room⟩

/-- Two characters on the right of a field of eight are not at the end of their word, which is where
the justification would have them. -/
theorem pack_right_short :
    pack [0x41, 0x42] 8 .rightZero = [0x4142000000000000] ∧
    (pack [0x41, 0x42] 8 .rightZero).flatMap Word.bytes ≠
      List.replicate 6 0 ++ [0x41, 0x42] := by
  decide +kernel

end Characters

end CrayAssembler
