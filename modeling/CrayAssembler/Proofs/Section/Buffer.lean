import CrayAssembler.Proofs.Machine.Bits
import CrayAssembler.Section.Block

namespace CrayAssembler

namespace ImageBuffer

variable {buffer : ImageBuffer}

/-- The words that are given are those of the buffer from its base up to the last that was written. -/
theorem Tidy.image_eq (tidy : buffer.Tidy) :
    buffer.image = buffer.baseWord.map fun base =>
      ⟨base, (buffer.words.extract 0 (buffer.stopWord - base)).toList⟩ := by
  have known := tidy.base_eq
  unfold image
  cases low : buffer.lowParcel with
  | none =>
    rw [low] at known
    rw [← known]
    rfl
  | some parcel =>
    rw [low] at known
    rw [← known]
    change some (ImageWords.mk (parcel / parcelsPerWord) _) = _
    rw [Nat.sub_self]
    rfl

theorem Tidy.image_eq_none_iff (tidy : buffer.Tidy) :
    buffer.image = none ↔ buffer.baseWord = none := by
  rw [tidy.image_eq, Option.map_eq_none_iff]

/-- What is given of a buffer is all that it holds. -/
theorem Tidy.of_image (tidy : buffer.Tidy) {image : ImageWords} (found : buffer.image = some image) :
    buffer.baseWord = some image.base ∧ image.stop = buffer.stopWord ∧
      ∀ address, image.word address = buffer.word address := by
  rw [tidy.image_eq, Option.map_eq_some_iff] at found
  obtain ⟨base, based, rfl⟩ := found
  have base_lt := tidy.base_lt base based
  have stop_le := tidy.stop_le base based
  have length : (buffer.words.extract 0 (buffer.stopWord - base)).toList.length =
      buffer.stopWord - base := by
    rw [Array.length_toList, Array.size_extract, Nat.sub_zero]
    omega
  refine ⟨based, ?_, fun address => ?_⟩
  · unfold ImageWords.stop
    rw [length]
    exact Nat.add_sub_cancel' (Nat.le_of_lt base_lt)
  · unfold ImageWords.word
    rcases Nat.lt_or_ge address base with below | above
    · rw [if_pos below]
      unfold word
      rw [based]
      exact (if_pos below).symm
    · rw [if_neg (Nat.not_lt.mpr above), List.getD_eq_getElem?_getD]
      dsimp only
      rcases Nat.lt_or_ge address buffer.stopWord with inside | past
      · rw [Array.getElem?_toList, Array.getElem?_extract, if_pos (by omega), Nat.zero_add]
        unfold word
        rw [based]
        exact (if_neg (Nat.not_lt.mpr above)).symm
      · rw [tidy.clear address past, List.getElem?_eq_none (by omega)]
        rfl

/-- A bit of the buffer, which is clear where nothing was written. -/
def bit (buffer : ImageBuffer) (address : Nat) : Bool :=
  (buffer.word (address / wordBits)).bit (address % wordBits)

/-- The bits of a field of a word are replaced. -/
theorem bit_modifyWord {address : Nat} (blank : buffer.baseWord = none → buffer.words = #[])
    (reaches : ∀ base, buffer.baseWord = some base → base ≤ address) (field : BitField) (value : Word)
    (place : Nat) :
    (buffer.modifyWord address (·.deposit field value)).bit place =
      if address * wordBits + field.start ≤ place ∧
        place < address * wordBits + field.start + field.width
      then value.bit (place % wordBits + field.below) else buffer.bit place := by
  have inWord : place % wordBits < wordBits := Nat.mod_lt _ (by decide)
  have whole : place / wordBits * wordBits + place % wordBits = place := Nat.div_add_mod' ..
  have fits := field.inside
  unfold bit
  rw [word_modifyWord blank reaches]
  by_cases here : address = place / wordBits
  · subst here
    rw [if_pos rfl, Word.bit_deposit _ _ _ inWord]
    refine ite_congr (propext ?_) (fun _ => rfl) fun _ => rfl
    omega
  · rw [if_neg here, if_neg]
    unfold wordBits at *
    omega

theorem bit_mark (bitAddress width : Nat) (place : Nat) :
    (buffer.mark bitAddress width).bit place = buffer.bit place := rfl

section Put

variable {bitAddress width : Nat} {value : Word}

/-- The bits of a field are replaced, in one word or in two. -/
theorem bit_put (blank : buffer.baseWord = none → buffer.words = #[])
    (reaches : ∀ base, buffer.baseWord = some base → base ≤ bitAddress / wordBits)
    (narrow : width ≤ wordBits) (place : Nat) :
    (buffer.put bitAddress width value).bit place =
      if bitAddress ≤ place ∧ place < bitAddress + width
      then value.bit (wordBits - width + (place - bitAddress)) else buffer.bit place := by
  have start_lt : bitAddress % wordBits < wordBits := Nat.mod_lt _ (by decide)
  have address : bitAddress / wordBits * wordBits + bitAddress % wordBits = bitAddress :=
    Nat.div_add_mod' ..
  have inWord : place % wordBits < wordBits := Nat.mod_lt _ (by decide)
  have whole : place / wordBits * wordBits + place % wordBits = place := Nat.div_add_mod' ..
  rcases Nat.lt_or_ge wordBits (bitAddress % wordBits + width) with straddles | inside
  case inr =>
    rw [put_inside inside, bit_mark, bit_modifyWord blank reaches]
    dsimp only
    rw [address]
    refine ite_congr rfl (fun covered => congrArg value.bit ?_) fun _ => rfl
    dsimp only [BitField.below] at covered ⊢
    unfold wordBits at *
    omega
  case inl =>
    have next : (bitAddress / wordBits + 1) * wordBits = bitAddress / wordBits * wordBits + wordBits :=
      Nat.succ_mul ..
    have reachesNext (first : Word → Word) : ∀ base,
        (buffer.modifyWord (bitAddress / wordBits) first).baseWord = some base →
          base ≤ bitAddress / wordBits + 1 := by
      rintro _ ⟨⟩
      cases found : buffer.baseWord with
      | none => exact Nat.le_succ _
      | some base => exact Nat.le_succ_of_le (reaches base found)
    have based (first : Word → Word) :
        (buffer.modifyWord (bitAddress / wordBits) first).baseWord ≠ none := nofun
    rw [put_across straddles (by omega) (by omega), bit_mark,
      bit_modifyWord (fun none => absurd none (based _)) (reachesNext _),
      bit_modifyWord blank reaches]
    dsimp only [BitField.below]
    by_cases second : bitAddress / wordBits * wordBits + wordBits ≤ place ∧
        place < bitAddress + width
    · rw [if_pos (by omega), if_pos (by omega)]
      congr 1
      unfold wordBits at *
      omega
    · rw [if_neg (by omega)]
      refine ite_congr (propext ⟨fun _ => ?_, fun _ => ?_⟩) (fun first => ?_) fun _ => rfl
      · omega
      · omega
      · rw [Word.bit_shiftRight _ (by omega) (by omega) (by unfold wordBits at *; omega)]
        congr 1
        unfold wordBits at *
        omega

/-- The first field sets the base. -/
theorem baseWord_put (narrow : width ≤ wordBits) :
    (buffer.put bitAddress width value).baseWord =
      some (buffer.baseWord.getD (bitAddress / wordBits)) := by
  have start_lt : bitAddress % wordBits < wordBits := Nat.mod_lt _ (by decide)
  rcases Nat.lt_or_ge wordBits (bitAddress % wordBits + width) with straddles | inside
  · rw [put_across straddles (by omega) (by omega)]
    rfl
  · rw [put_inside inside]
    rfl

/-- A field brings the buffer to the last word that it touches. -/
theorem stopWord_put (narrow : width ≤ wordBits) :
    (buffer.put bitAddress width value).stopWord =
      max buffer.stopWord ((bitAddress + width + wordBits - 1) / wordBits) := by
  have start_lt : bitAddress % wordBits < wordBits := Nat.mod_lt _ (by decide)
  rcases Nat.lt_or_ge wordBits (bitAddress % wordBits + width) with straddles | inside
  · rw [put_across straddles (by omega) (by omega)]
    exact stopWord_mark rfl
  · rw [put_inside inside]
    exact stopWord_mark rfl

/-- What was written in one word is found there. -/
theorem extract_writeBits {written : ImageBuffer} {field : BitField}
    (blank : buffer.baseWord = none → buffer.words = #[]) (positive : 0 < width)
    (found : BitField.check (bitAddress % wordBits) width = .ok field)
    (accepted : buffer.writeBits bitAddress width value = .ok written) :
    (written.word (bitAddress / wordBits)).extract field = value &&& Word.maskRight width := by
  unfold writeBits at accepted
  rw [if_neg (Nat.ne_of_gt positive)] at accepted
  split at accepted
  · nomatch accepted
  case isFalse above =>
    cases accepted
    rcases Nat.lt_or_ge wordBits (bitAddress % wordBits + width) with straddles | inside
    · rw [BitField.check_outside straddles] at found
      nomatch found
    · rw [BitField.check_inside inside] at found
      cases found
      have stored (changed : ImageBuffer) (address : Nat) :
          (changed.mark bitAddress width).word address = changed.word address := rfl
      rw [put_inside inside, stored, word_modifyWord blank (reaches_of_not_any above), if_pos rfl,
        Word.extract_deposit, UInt64.and_assoc, UInt64.and_self]

end Put

end ImageBuffer

namespace ImageWords

/-- A bit of an image, which is clear where nothing was written. -/
def bit (image : ImageWords) (address : Nat) : Bool :=
  (image.word (address / wordBits)).bit (address % wordBits)

/-- The words that are listed hold the bits of the image. -/
theorem bit_toList {image : ImageWords} {i : Nat} {word : Word} (found : image.toList[i]? = some word)
    {j : Nat} (inside : j < wordBits) : word.bit j = image.bit ((image.base + i) * wordBits + j) := by
  have address : ((image.base + i) * wordBits + j) / wordBits = image.base + i := by
    unfold wordBits at *
    omega
  have offset : ((image.base + i) * wordBits + j) % wordBits = j := by
    unfold wordBits at *
    omega
  unfold bit ImageWords.word
  rw [address, offset, if_neg (by omega), Nat.add_sub_cancel_left, List.getD_eq_getElem?_getD, found,
    Option.getD_some]

end ImageWords

namespace ObjectBlock

/-- A word of the image, which is zero where nothing was written. -/
def word (block : ObjectBlock) (address : Nat) : Word :=
  (block.image.map (·.word address)).getD 0

/-- A bit of the image. -/
def bit (block : ObjectBlock) (address : Nat) : Bool :=
  (block.word (address / wordBits)).bit (address % wordBits)

/-- The image does not begin after a bit address, so that writing there is not refused. -/
def Reaches (block : ObjectBlock) (bitAddress : Nat) : Prop :=
  ∀ image, block.image = some image → image.base ≤ bitAddress / wordBits

variable {block : ObjectBlock} {bitAddress width : Nat} {value : Word}

theorem word_eq_buffer (block : ObjectBlock) (address : Nat) :
    block.word address = block.buffer.word address := by
  unfold word
  cases found : block.image with
  | none =>
    have based := block.tidy.image_eq_none_iff.mp found
    unfold ImageBuffer.word
    rw [based]
    rfl
  | some image => exact (block.tidy.of_image found).2.2 address

theorem bit_eq_buffer (block : ObjectBlock) (address : Nat) :
    block.bit address = block.buffer.bit address :=
  congrArg (Word.bit · _) (block.word_eq_buffer _)

theorem bit_of_image {image : ImageWords} (found : block.image = some image) (address : Nat) :
    block.bit address = image.bit address := by
  unfold bit word
  rw [found]
  rfl

theorem baseWord_eq (block : ObjectBlock) : block.buffer.baseWord = block.image.map (·.base) := by
  cases found : block.image with
  | none => exact block.tidy.image_eq_none_iff.mp found
  | some image => exact (block.tidy.of_image found).1

/-- The bits of a word of the image. -/
theorem bit_of_word (block : ObjectBlock) (address : Nat) {i : Nat} (inside : i < wordBits) :
    block.bit (address * wordBits + i) = (block.word address).bit i := by
  have whole : (address * wordBits + i) / wordBits = address := by
    unfold wordBits at *
    omega
  have offset : (address * wordBits + i) % wordBits = i := by
    unfold wordBits at *
    omega
  unfold bit
  rw [whole, offset]

theorem reaches_iff :
    block.Reaches bitAddress ↔
      ∀ base, block.buffer.baseWord = some base → base ≤ bitAddress / wordBits := by
  rw [block.baseWord_eq]
  constructor
  · intro reaches base based
    obtain ⟨image, found, rfl⟩ := Option.map_eq_some_iff.mp based
    exact reaches image found
  · intro below image found
    exact below image.base (by rw [found]; rfl)

/-- What a write of a field that is not empty leaves. -/
structure Written (block next : ObjectBlock) (bitAddress width : Nat) (value : Word) : Prop where
  relocations : next.relocations = block.relocations
  externals : next.externals = block.externals
  image : ∃ image, next.image = some image ∧
    image.base = (block.image.map (·.base)).getD (bitAddress / wordBits) ∧
    image.stop = max ((block.image.map (·.stop)).getD (bitAddress / wordBits))
      ((bitAddress + width + wordBits - 1) / wordBits)
  bit : ∀ address, next.bit address =
    if bitAddress ≤ address ∧ address < bitAddress + width
    then value.bit (wordBits - width + (address - bitAddress)) else block.bit address

/-- The low bits of a value are its last ones. -/
theorem bit_and_maskRight {i : Nat} (inside : i < width) (narrow : width ≤ wordBits) :
    (value &&& Word.maskRight width).bit (wordBits - width + i) =
      value.bit (wordBits - width + i) := by
  rw [Word.bit_and, Word.bit_maskRight _ (by omega), decide_eq_true (Nat.le_add_right _ _),
    Bool.and_true]

theorem writeBits_of_buffer {buffer : ImageBuffer}
    (written : block.buffer.writeBits bitAddress width value = .ok buffer) :
    block.writeBits bitAddress width value =
      .ok { block with buffer, tidy := block.tidy.writeBits written } := by
  unfold writeBits
  split
  case h_1 other same =>
    cases written.symm.trans same
    rfl
  case h_2 kind refused => nomatch written.symm.trans refused

theorem writeBits_refused {kind : ErrorKind}
    (refused : block.buffer.writeBits bitAddress width value = .error kind) :
    block.writeBits bitAddress width value = .error kind := by
  unfold writeBits
  split
  case h_1 buffer written => nomatch refused.symm.trans written
  case h_2 other same =>
    cases refused.symm.trans same
    rfl

theorem writeBits_put (positive : 0 < width) (reaches : block.Reaches bitAddress) (value : Word) :
    block.buffer.writeBits bitAddress width value =
      .ok (block.buffer.put bitAddress width (value &&& Word.maskRight width)) := by
  have below := reaches_iff.mp reaches
  have accepted : ¬block.buffer.baseWord.any (bitAddress / wordBits < ·) = true := by
    rw [Option.any_eq_true]
    rintro ⟨base, based, before⟩
    exact Nat.not_lt.mpr (below base based) (of_decide_eq_true before)
  unfold ImageBuffer.writeBits
  rw [if_neg (Nat.pos_iff_ne_zero.mp positive), if_neg accepted]

theorem writeBits_accepted (reaches : block.Reaches bitAddress) (width : Nat) (value : Word) :
    ∃ next, block.writeBits bitAddress width value = .ok next := by
  rcases Nat.eq_zero_or_pos width with rfl | positive
  · exact ⟨block, rfl⟩
  · exact ⟨_, writeBits_of_buffer (writeBits_put positive reaches value)⟩

/-- A field that does not start before the image replaces its bits, and brings the image to the last
word that it touches. -/
theorem writeBits_of_reaches (positive : 0 < width) (narrow : width ≤ wordBits)
    (reaches : block.Reaches bitAddress) (value : Word) :
    ∃ next, block.writeBits bitAddress width value = .ok next ∧
      block.Written next bitAddress width value := by
  have performed := writeBits_put positive reaches value
  refine ⟨_, writeBits_of_buffer performed, rfl, rfl, ?image, fun address => ?bit⟩
  case image =>
    obtain ⟨image, found⟩ : ∃ image, (block.buffer.put bitAddress width
        (value &&& Word.maskRight width)).image = some image := by
      rw [(block.tidy.writeBits performed).image_eq, ImageBuffer.baseWord_put narrow]
      exact ⟨_, rfl⟩
    obtain ⟨base, stop, -⟩ := (block.tidy.writeBits performed).of_image found
    rw [ImageBuffer.baseWord_put narrow, block.baseWord_eq] at base
    rw [ImageBuffer.stopWord_put narrow] at stop
    refine ⟨image, found, (Option.some.inj base).symm, stop.trans ?_⟩
    cases held : block.image with
    | some old => rw [← (block.tidy.of_image held).2.1, Option.map_some, Option.getD_some]
    | none =>
      have blank := (block.tidy.blank (block.tidy.image_eq_none_iff.mp held)).2
      unfold ImageBuffer.stopWord parcelsPerWord
      rw [blank, Option.map_none, Option.getD_none]
      unfold wordBits
      omega
  case bit =>
    rw [bit_eq_buffer, bit_eq_buffer,
      ImageBuffer.bit_put (fun none => (block.tidy.blank none).1) (reaches_iff.mp reaches) narrow]
    refine ite_congr rfl (fun ⟨_, before⟩ => ?_) fun _ => rfl
    exact bit_and_maskRight (by omega) narrow

theorem writeBits_of_not_reaches (positive : 0 < width) (before : ¬block.Reaches bitAddress) :
    block.writeBits bitAddress width value = .error .instructionPlacement := by
  refine writeBits_refused ?_
  have refused : block.buffer.baseWord.any (bitAddress / wordBits < ·) = true := by
    rw [reaches_iff] at before
    obtain ⟨base, below⟩ := Classical.not_forall.mp before
    obtain ⟨based, below⟩ := Classical.not_imp.mp below
    rw [based]
    exact decide_eq_true (Nat.not_le.mp below)
  unfold ImageBuffer.writeBits
  rw [if_neg (Nat.pos_iff_ne_zero.mp positive), if_pos refused]

/-- What is accepted did not start before the image. -/
theorem written_of_writeBits {next : ObjectBlock} (positive : 0 < width) (narrow : width ≤ wordBits)
    (accepted : block.writeBits bitAddress width value = .ok next) :
    block.Reaches bitAddress ∧ block.Written next bitAddress width value := by
  by_cases reaches : block.Reaches bitAddress
  · obtain ⟨_, same, written⟩ := writeBits_of_reaches positive narrow reaches value
    cases accepted.symm.trans same
    exact ⟨reaches, written⟩
  · nomatch accepted.symm.trans (writeBits_of_not_reaches positive reaches)

/-- Write whole words one after another from a bit address on. The first that is refused stops the
writing. -/
def writeWords (block : ObjectBlock) (bitAddress : Nat) :
    List Word → ObjectBlock × Option ErrorKind
  | [] => (block, none)
  | word :: rest =>
    match block.writeBits bitAddress wordBits word with
    | .ok written => written.writeWords (bitAddress + wordBits) rest
    | .error kind => (block, some kind)

end ObjectBlock

end CrayAssembler
