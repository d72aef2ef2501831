import CrayAssembler.Diagnostic
import CrayAssembler.Machine.Word

namespace CrayAssembler

/-- The buffer of an image grows by this many words at a time. -/
def imageIncrement : Nat := 512

/-- The words of a section while they are being written. There are more of them than were written, as
the buffer grows many at a time; which were written is told in parcels. -/
structure ImageBuffer where
  /-- Address of the first word of the buffer, which the first write sets. -/
  baseWord : Option Nat
  words : Array Word
  /-- The lowest parcel that was written. -/
  lowParcel : Option Nat
  /-- One past the highest parcel that was written. -/
  highParcel : Nat

/-- Words from an address on. -/
structure ImageWords where
  base : Nat
  toList : List Word
deriving DecidableEq, Repr

namespace ImageBuffer

def empty : ImageBuffer := ⟨none, #[], none, 0⟩

/-- The words, with zeros after them until there is one at a place. -/
def grown (words : Array Word) (index : Nat) : Array Word :=
  if index < words.size then words
  else
    let wanted := (index / imageIncrement + 1) * imageIncrement
    (words.toList ++ List.replicate (wanted - words.size) 0).toArray

/-- Change the word at an address. The first address that is asked for becomes the base. -/
def modifyWord (buffer : ImageBuffer) (address : Nat) (change : Word → Word) : ImageBuffer :=
  let base := buffer.baseWord.getD address
  { buffer with
    baseWord := some base
    words := (grown buffer.words (address - base)).modify (address - base) change }

/-- Count the parcels of a field as written. -/
def mark (buffer : ImageBuffer) (bitAddress width : Nat) : ImageBuffer :=
  let low := bitAddress / parcelBits
  { buffer with
    lowParcel := some ((buffer.lowParcel.map (min · low)).getD low)
    highParcel := max buffer.highParcel ((bitAddress + width + parcelBits - 1) / parcelBits) }

/-- Put the low `width` bits of `value` at a bit address, over the end of the word into the next one
if need be. No field reaches further. -/
def put (buffer : ImageBuffer) (bitAddress width : Nat) (value : Word) : ImageBuffer :=
  let word := bitAddress / wordBits
  let start := bitAddress % wordBits
  match BitField.check start width with
  | .ok field => (buffer.modifyWord word (·.deposit field value)).mark bitAddress width
  | .error _ =>
    let first := wordBits - start
    let second := width - first
    match BitField.check start first, BitField.check 0 second with
    | .ok left, .ok right =>
      ((buffer.modifyWord word (·.deposit left (value >>> UInt64.ofNat second))).modifyWord (word + 1)
        (·.deposit right value)).mark bitAddress width
    | _, _ => buffer

/-- Write the low `width` bits of `value` at a bit address. A field that starts in a word below the
buffer is refused, one of no width changes nothing. -/
def writeBits (buffer : ImageBuffer) (bitAddress width : Nat) (value : Word) :
    Except ErrorKind ImageBuffer :=
  if width = 0 then .ok buffer
  else if buffer.baseWord.any (bitAddress / wordBits < ·) then .error .instructionPlacement
  else .ok (buffer.put bitAddress width (value &&& Word.maskRight width))

/-- One past the last word that was written. -/
def stopWord (buffer : ImageBuffer) : Nat :=
  (buffer.highParcel + parcelsPerWord - 1) / parcelsPerWord

/-- The words that were written. -/
def image (buffer : ImageBuffer) : Option ImageWords := do
  let low ← buffer.lowParcel
  let base ← buffer.baseWord
  let first := low / parcelsPerWord
  return ⟨first, (buffer.words.extract (first - base) (buffer.stopWord - base)).toList⟩

/-- A word of the buffer; zero outside of it. -/
def word (buffer : ImageBuffer) (address : Nat) : Word :=
  match buffer.baseWord with
  | none => 0
  | some base => if address < base then 0 else buffer.words[address - base]?.getD 0

/-- How the parts of a buffer go together: the parcels that were written begin in its first word and
end in it, and there are only zeros past them. -/
structure Tidy (buffer : ImageBuffer) : Prop where
  base_eq : buffer.lowParcel.map (· / parcelsPerWord) = buffer.baseWord
  blank : buffer.baseWord = none → buffer.words = #[] ∧ buffer.highParcel = 0
  base_lt : ∀ base, buffer.baseWord = some base → base < buffer.stopWord
  stop_le : ∀ base, buffer.baseWord = some base → buffer.stopWord ≤ base + buffer.words.size
  clear : ∀ address, buffer.stopWord ≤ address → buffer.word address = 0

theorem tidy_empty : empty.Tidy :=
  ⟨rfl, fun _ => ⟨rfl, rfl⟩, nofun, nofun, fun _ _ => rfl⟩

theorem lt_size_grown (words : Array Word) (index : Nat) : index < (grown words index).size := by
  unfold grown
  split
  case isTrue inside => exact inside
  case isFalse outside =>
    rw [List.size_toArray, List.length_append, List.length_replicate, Array.length_toList]
    unfold imageIncrement
    omega

theorem size_le_grown (words : Array Word) (index : Nat) :
    words.size ≤ (grown words index).size := by
  unfold grown
  split
  · exact Nat.le_refl _
  · simp only [List.size_toArray, List.length_append, Array.length_toList]
    exact Nat.le_add_right _ _

/-- Only zeros are added. -/
theorem getD_grown (words : Array Word) (index i : Nat) :
    (grown words index)[i]?.getD 0 = words[i]?.getD 0 := by
  unfold grown
  split
  · rfl
  · dsimp only
    rw [List.getElem?_toArray, List.getElem?_append, Array.length_toList]
    split
    case isTrue => rw [Array.getElem?_toList]
    case isFalse outside =>
      rw [Array.getElem?_eq_none (Nat.le_of_not_lt outside), List.getElem?_replicate]
      split <;> rfl

section Words

variable {buffer : ImageBuffer} {address : Nat} {change : Word → Word}

theorem size_modifyWord :
    (buffer.modifyWord address change).words.size =
      (grown buffer.words (address - buffer.baseWord.getD address)).size :=
  Array.size_modify

/-- The word at the address is changed, and no other. -/
theorem word_modifyWord (blank : buffer.baseWord = none → buffer.words = #[])
    (reaches : ∀ base, buffer.baseWord = some base → base ≤ address) (other : Nat) :
    (buffer.modifyWord address change).word other =
      if address = other then change (buffer.word address) else buffer.word other := by
  have old (i : Nat) : i < buffer.baseWord.getD address ∧ buffer.word i = 0 ∨
      buffer.baseWord.getD address ≤ i ∧
        buffer.word i = buffer.words[i - buffer.baseWord.getD address]?.getD 0 := by
    unfold word
    cases based : buffer.baseWord with
    | none =>
      rw [blank based]
      exact (Nat.lt_or_ge i address).imp (⟨·, rfl⟩) (⟨·, rfl⟩)
    | some base =>
      rcases Nat.lt_or_ge i base with below | above
      · exact .inl ⟨below, if_pos below⟩
      · exact .inr ⟨above, if_neg (Nat.not_lt.mpr above)⟩
  have base_le : buffer.baseWord.getD address ≤ address := by
    cases based : buffer.baseWord with
    | none => exact Nat.le_refl _
    | some base => exact reaches base based
  have room := lt_size_grown buffer.words (address - buffer.baseWord.getD address)
  obtain ⟨base, same⟩ : ∃ base, buffer.baseWord.getD address = base := ⟨_, rfl⟩
  rw [same] at old base_le room
  change (if other < buffer.baseWord.getD address then (0 : Word) else _) = _
  dsimp only [modifyWord]
  rw [same, Array.getElem?_modify]
  by_cases here : address = other
  · subst here
    have known := (old address).resolve_left fun both => Nat.not_le.mpr both.1 base_le
    rw [if_neg (Nat.not_lt.mpr base_le), if_pos rfl, if_pos rfl, known.2,
      ← getD_grown buffer.words (address - base), Array.getElem?_eq_getElem room]
    rfl
  · rw [if_neg here]
    rcases old other with ⟨below, zero⟩ | ⟨above, stored⟩
    · rw [if_pos below, zero]
    · rw [if_neg (Nat.not_lt.mpr above), if_neg (by omega), stored, getD_grown]

end Words

section Put

variable {buffer : ImageBuffer} {bitAddress width : Nat} {value : Word}

theorem put_inside (inside : bitAddress % wordBits + width ≤ wordBits) :
    buffer.put bitAddress width value =
      (buffer.modifyWord (bitAddress / wordBits)
        (·.deposit ⟨bitAddress % wordBits, width, inside⟩ value)).mark bitAddress width := by
  unfold put
  dsimp only
  rw [BitField.check_inside inside]

/-- What does not go into the word goes into the next one. -/
theorem put_across (outside : wordBits < bitAddress % wordBits + width)
    (left : bitAddress % wordBits + (wordBits - bitAddress % wordBits) ≤ wordBits)
    (right : 0 + (width - (wordBits - bitAddress % wordBits)) ≤ wordBits) :
    buffer.put bitAddress width value =
      ((buffer.modifyWord (bitAddress / wordBits)
        (·.deposit ⟨bitAddress % wordBits, _, left⟩
          (value >>> UInt64.ofNat (width - (wordBits - bitAddress % wordBits))))).modifyWord
        (bitAddress / wordBits + 1) (·.deposit ⟨0, _, right⟩ value)).mark bitAddress width := by
  unfold put
  dsimp only
  rw [BitField.check_outside outside, BitField.check_inside left, BitField.check_inside right]

/-- A field is put into one word of a buffer or into two, and its parcels are counted. -/
theorem put_cases (buffer : ImageBuffer) (bitAddress width : Nat) (value : Word) :
    (∃ change, bitAddress % wordBits + width ≤ wordBits ∧ buffer.put bitAddress width value =
      (buffer.modifyWord (bitAddress / wordBits) change).mark bitAddress width) ∨
    (∃ first second, wordBits < bitAddress % wordBits + width ∧
      bitAddress % wordBits + width ≤ 2 * wordBits ∧ buffer.put bitAddress width value =
        ((buffer.modifyWord (bitAddress / wordBits) first).modifyWord (bitAddress / wordBits + 1)
          second).mark bitAddress width) ∨
    buffer.put bitAddress width value = buffer := by
  have inWord : bitAddress % wordBits < wordBits := Nat.mod_lt _ (by decide)
  rcases Nat.lt_or_ge wordBits (bitAddress % wordBits + width) with outside | inside
  · have left : bitAddress % wordBits + (wordBits - bitAddress % wordBits) ≤ wordBits := by omega
    rcases Nat.lt_or_ge wordBits (0 + (width - (wordBits - bitAddress % wordBits)))
      with beyond | right
    · refine .inr (.inr ?_)
      unfold put
      dsimp only
      rw [BitField.check_outside outside, BitField.check_inside left, BitField.check_outside beyond]
    · exact .inr (.inl ⟨_, _, outside, by omega, put_across outside left right⟩)
  · exact .inl ⟨_, inside, put_inside inside⟩

theorem stopWord_mark {changed : ImageBuffer} (high : changed.highParcel = buffer.highParcel) :
    (changed.mark bitAddress width).stopWord =
      max buffer.stopWord ((bitAddress + width + wordBits - 1) / wordBits) := by
  unfold stopWord mark
  dsimp only
  rw [high]
  unfold parcelsPerWord parcelBits wordBits
  omega

/-- The parcels of a field are counted, where the words that it touches were changed. -/
theorem Tidy.mark (tidy : buffer.Tidy) {changed : ImageBuffer} (positive : 0 < width)
    (low : changed.lowParcel = buffer.lowParcel) (high : changed.highParcel = buffer.highParcel)
    (based : changed.baseWord = some (buffer.baseWord.getD (bitAddress / wordBits)))
    (reaches : ∀ base, buffer.baseWord = some base → base ≤ bitAddress / wordBits)
    (size_le : buffer.words.size ≤ changed.words.size)
    (room : (bitAddress + width + wordBits - 1) / wordBits ≤
      buffer.baseWord.getD (bitAddress / wordBits) + changed.words.size)
    (others : ∀ address, (bitAddress + width + wordBits - 1) / wordBits ≤ address →
      changed.word address = buffer.word address) :
    (changed.mark bitAddress width).Tidy := by
  have stop : (changed.mark bitAddress width).stopWord =
      max buffer.stopWord ((bitAddress + width + wordBits - 1) / wordBits) := stopWord_mark high
  have base_le : buffer.baseWord.getD (bitAddress / wordBits) ≤ bitAddress / wordBits := by
    cases found : buffer.baseWord with
    | none => exact Nat.le_refl _
    | some base => exact reaches base found
  have before : bitAddress / wordBits < (bitAddress + width + wordBits - 1) / wordBits := by
    unfold wordBits
    omega
  constructor
  case base_eq =>
    have known := tidy.base_eq
    change (some _).map _ = changed.baseWord
    rw [based, low, Option.map_some]
    refine congrArg some ?_
    cases lowest : buffer.lowParcel with
    | none =>
      rw [lowest] at known
      rw [← known]
      change bitAddress / parcelBits / parcelsPerWord = bitAddress / wordBits
      unfold parcelBits parcelsPerWord wordBits
      omega
    | some parcel =>
      rw [lowest, Option.map_some] at known
      rw [← known] at base_le ⊢
      rw [Option.getD_some] at base_le ⊢
      change min parcel (bitAddress / parcelBits) / parcelsPerWord = parcel / parcelsPerWord
      unfold parcelBits parcelsPerWord wordBits at *
      omega
  case blank =>
    intro none
    exact absurd (based.symm.trans none) nofun
  case base_lt =>
    intro base found
    obtain rfl := Option.some.inj (based.symm.trans found)
    rw [stop]
    omega
  case stop_le =>
    intro base found
    obtain rfl := Option.some.inj (based.symm.trans found)
    rw [stop]
    change _ ≤ _ + changed.words.size
    refine Nat.max_le.mpr ⟨?_, room⟩
    cases known : buffer.baseWord with
    | none =>
      have zero := (tidy.blank known).2
      unfold stopWord
      rw [zero]
      exact Nat.zero_le _
    | some base => exact Nat.le_trans (tidy.stop_le base known) (Nat.add_le_add_left size_le _)
  case clear =>
    intro address past
    rw [stop] at past
    change changed.word address = 0
    rw [others address (Nat.le_trans (Nat.le_max_right ..) past)]
    exact tidy.clear address (Nat.le_trans (Nat.le_max_left ..) past)

theorem Tidy.put (tidy : buffer.Tidy) (positive : 0 < width)
    (reaches : ∀ base, buffer.baseWord = some base → base ≤ bitAddress / wordBits) :
    (buffer.put bitAddress width value).Tidy := by
  have blank := fun none => (tidy.blank none).1
  have base_le : buffer.baseWord.getD (bitAddress / wordBits) ≤ bitAddress / wordBits := by
    cases found : buffer.baseWord with
    | none => exact Nat.le_refl _
    | some base => exact reaches base found
  have inWord : bitAddress % wordBits < wordBits := Nat.mod_lt _ (by decide)
  have whole : bitAddress / wordBits * wordBits + bitAddress % wordBits = bitAddress :=
    Nat.div_add_mod' ..
  rcases put_cases buffer bitAddress width value with
    ⟨change, inside, same⟩ | ⟨first, second, outside, room, same⟩ | same
  · have last : (bitAddress + width + wordBits - 1) / wordBits = bitAddress / wordBits + 1 := by
      unfold wordBits at *
      omega
    have grows := lt_size_grown buffer.words
      (bitAddress / wordBits - buffer.baseWord.getD (bitAddress / wordBits))
    rw [same]
    refine tidy.mark positive rfl rfl rfl reaches ?_ ?_ fun address past => ?_
    · rw [size_modifyWord]
      exact size_le_grown _ _
    · rw [size_modifyWord, last]
      omega
    · rw [word_modifyWord blank reaches, if_neg (by omega)]
  · have last : (bitAddress + width + wordBits - 1) / wordBits = bitAddress / wordBits + 2 := by
      unfold wordBits at *
      omega
    have based : (buffer.modifyWord (bitAddress / wordBits) first).baseWord =
        some (buffer.baseWord.getD (bitAddress / wordBits)) := rfl
    have reachesNext : ∀ base,
        (buffer.modifyWord (bitAddress / wordBits) first).baseWord = some base →
          base ≤ bitAddress / wordBits + 1 := by
      rintro _ ⟨⟩
      exact Nat.le_succ_of_le base_le
    have grows := lt_size_grown (buffer.modifyWord (bitAddress / wordBits) first).words
      (bitAddress / wordBits + 1 - buffer.baseWord.getD (bitAddress / wordBits))
    have size : ((buffer.modifyWord (bitAddress / wordBits) first).modifyWord
        (bitAddress / wordBits + 1) second).words.size =
        (grown (buffer.modifyWord (bitAddress / wordBits) first).words
          (bitAddress / wordBits + 1 - buffer.baseWord.getD (bitAddress / wordBits))).size :=
      size_modifyWord
    rw [same]
    refine tidy.mark positive rfl rfl rfl reaches ?_ ?_ fun address past => ?_
    · rw [size]
      refine Nat.le_trans ?_ (size_le_grown _ _)
      rw [size_modifyWord]
      exact size_le_grown _ _
    · rw [size, last]
      omega
    · rw [word_modifyWord (fun none => nomatch based.symm.trans none) reachesNext,
        if_neg (by omega), word_modifyWord blank reaches, if_neg (by omega)]
  · rwa [same]

theorem reaches_of_not_any {base : Option Nat} {word : Nat}
    (accepted : ¬base.any (word < ·) = true) : ∀ first, base = some first → first ≤ word := by
  rintro first rfl
  simpa using accepted

theorem Tidy.writeBits (tidy : buffer.Tidy) {written : ImageBuffer}
    (accepted : buffer.writeBits bitAddress width value = .ok written) : written.Tidy := by
  unfold ImageBuffer.writeBits at accepted
  split at accepted
  · cases accepted
    exact tidy
  case isFalse full =>
    split at accepted
    · nomatch accepted
    case isFalse above =>
      cases accepted
      exact tidy.put (Nat.pos_of_ne_zero full) (reaches_of_not_any above)

end Put

end ImageBuffer

end CrayAssembler
