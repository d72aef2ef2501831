import CrayAssembler.Object.Dataset
import CrayAssembler.Proofs.Machine.Packing

namespace CrayAssembler

namespace Dataset

/-- The control word of a record gives its kind. -/
theorem recordControl_kind {n : Nat} (small : n < 2 ^ 60) :
    (recordControl ||| UInt64.ofNat n) &&& kindMask = recordControl := by
  have length := Word.toNat_ofNat_of_lt (show n < 2 ^ 64 by omega)
  have control : recordControl &&& kindMask = recordControl := by decide
  have mask : kindMask.toNat = 15 * 2 ^ 60 := by decide
  have clear := Word.and_eq_zero_of_lt mask (by rw [length]; exact small)
  rw [Word.or_and, control, clear, UInt64.or_zero]

/-- The control word of a record gives its length. -/
theorem recordControl_length {n : Nat} (small : n < 2 ^ 60) :
    ((recordControl ||| UInt64.ofNat n) &&& ~~~kindMask).toNat = n := by
  have length := Word.toNat_ofNat_of_lt (show n < 2 ^ 64 by omega)
  have control : recordControl &&& ~~~kindMask = 0 := by decide
  have mask : (~~~kindMask).toNat = 2 ^ 60 - 1 := by decide
  rw [Word.or_and, control, UInt64.zero_or, Word.toNat_and_mask _ mask, length,
    Nat.mod_eq_of_lt small]

theorem divideFrom_skip (skipped rest : List Word) (position : Nat) :
    divideFrom position skipped.length (skipped ++ rest) =
      divideFrom (position + skipped.length) 0 rest := by
  induction skipped generalizing position with
  | nil => rfl
  | cons word skipped ih =>
    rw [List.cons_append, List.length_cons, divideFrom, ih]
    congr 1
    omega

/-- The first item of a dataset that does not end here is divided off. -/
theorem divideFrom_item (item : Item) (going : item ≠ .endOfData)
    (short : ∀ words, item = .record words → words.length < 2 ^ 60) (rest : List Word)
    (position : Nat) :
    divideFrom position 0 (item.words ++ rest) =
      (⟨position, item⟩ :: (divideFrom (position + item.words.length) 0 rest).1,
        (divideFrom (position + item.words.length) 0 rest).2) := by
  cases item with
  | endOfData => exact (going rfl).elim
  | endOfFile => rfl
  | record words =>
    have small := short words rfl
    have kind := recordControl_kind small
    have length := recordControl_length small
    have notData : recordControl ≠ endOfDataControl := by decide
    have notFile : recordControl ≠ endOfFileControl := by decide
    have room : words.length ≤ (words ++ rest).length := by
      rw [List.length_append]
      omega
    simp only [Item.words, List.cons_append, divideFrom, kind, length, if_neg notData,
      if_neg notFile, if_true, if_pos room, List.take_left, divideFrom_skip, List.length_cons]
    rw [Nat.add_right_comm, Nat.add_assoc position]

/-- Items written one after another and closed by the end of the data are divided as they were
written. -/
theorem divide_words (items : List Item) (going : ∀ item ∈ items, item ≠ .endOfData)
    (short : ∀ words, .record words ∈ items → words.length < 2 ^ 60) :
    ((divide (words (items ++ [.endOfData]))).1.map (·.value) = items) ∧
      (divide (words (items ++ [.endOfData]))).2.value = .endOfData := by
  suffices ∀ position, (divideFrom position 0 (words (items ++ [.endOfData]))).1.map (·.value) =
      items ∧ (divideFrom position 0 (words (items ++ [.endOfData]))).2.value = .endOfData from
    this 0
  induction items with
  | nil => exact fun position => ⟨rfl, rfl⟩
  | cons item items ih =>
    intro position
    have later := ih (fun other member => going other (List.mem_cons_of_mem _ member))
      (fun words member => short words (List.mem_cons_of_mem _ member))
      (position + item.words.length)
    have here := divideFrom_item item (going item List.mem_cons_self)
      (fun words same => short words (same ▸ List.mem_cons_self)) (words (items ++ [.endOfData]))
      position
    have written : words (item :: items ++ [.endOfData]) =
        item.words ++ words (items ++ [.endOfData]) := List.flatMap_cons
    rw [written, here]
    exact ⟨by rw [List.map_cons, later.1], later.2⟩

end Dataset

end CrayAssembler
