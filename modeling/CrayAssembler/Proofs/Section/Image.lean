import CrayAssembler.Proofs.Machine.Bits
import CrayAssembler.Proofs.Section.Counters
import Mathlib.Data.List.Induction

namespace CrayAssembler

/-- A call that writes the last `width` bits of `value` from a bit address on. -/
structure BitWrite where
  bitAddress : Nat
  width : Nat
  value : Word
deriving DecidableEq, Repr

namespace BitWrite

/-- The word that the field starts in. -/
def firstWord (write : BitWrite) : Nat :=
  write.bitAddress / wordBits

/-- The last word that the field touches, if it is not empty. -/
def lastWord (write : BitWrite) : Nat :=
  (write.bitAddress + write.width - 1) / wordBits

/-- The address lies in the field. -/
def Covers (write : BitWrite) (address : Nat) : Prop :=
  write.bitAddress ≤ address ∧ address < write.bitAddress + write.width

instance (write : BitWrite) (address : Nat) : Decidable (write.Covers address) :=
  inferInstanceAs (Decidable (_ ∧ _))

/-- The bit that is written at an address in the field. -/
def bit (write : BitWrite) (address : Nat) : Bool :=
  write.value.bit (wordBits - write.width + (address - write.bitAddress))

/-- The bit that the latest of some writes has left at an address. The latest one comes first. -/
def latestBit (landed : List BitWrite) (address : Nat) : Bool :=
  ((landed.find? fun write => write.Covers address).map (·.bit address)).getD false

theorem latestBit_cons (write : BitWrite) (landed : List BitWrite) (address : Nat) :
    latestBit (write :: landed) address =
      if write.Covers address then write.bit address else latestBit landed address := by
  unfold latestBit
  by_cases covers : write.Covers address
  · rw [List.find?_cons_of_pos (by simpa using covers), if_pos covers]
    rfl
  · rw [List.find?_cons_of_neg (by simpa using covers), if_neg covers]

end BitWrite

namespace ImageWords

/-- The image is what some writes have left, the latest of which comes first. -/
structure Holds (image : ImageWords) (landed : List BitWrite) : Prop where
  bits : ∀ address, image.bit address = BitWrite.latestBit landed address
  base_eq : landed.getLast?.map BitWrite.firstWord = some image.base
  base_lt : image.base < image.stop
  within : ∀ write ∈ landed, write.lastWord < image.stop
  reached : ∃ write ∈ landed, write.lastWord + 1 = image.stop

end ImageWords

namespace ObjectBlock

/-- The block has the image that some writes have left, and none if there are no writes. -/
def Holds (block : ObjectBlock) (landed : List BitWrite) : Prop :=
  match block.image with
  | none => landed = []
  | some image => image.Holds landed

/-- Make a call. -/
def perform (block : ObjectBlock) (write : BitWrite) : Except ErrorKind ObjectBlock :=
  block.writeBits write.bitAddress write.width write.value

theorem perform_empty (block : ObjectBlock) {write : BitWrite} (empty : write.width = 0) :
    block.perform write = .ok block := by
  unfold perform
  rw [empty]
  rfl

theorem firstWord_le_lastWord {write : BitWrite} (positive : 0 < write.width) :
    write.firstWord ≤ write.lastWord :=
  Nat.div_le_div_right (by omega)

section Landing

variable {block : ObjectBlock} {landed : List BitWrite} (holds : block.Holds landed)

include holds

/-- The base of the image is the word of the first write. -/
theorem Holds.base_eq : block.image.map (·.base) = landed.getLast?.map BitWrite.firstWord := by
  unfold Holds at holds
  cases found : block.image with
  | none =>
    rw [found] at holds
    rw [holds]
    rfl
  | some image =>
    rw [found] at holds
    exact holds.base_eq.symm

theorem Holds.bit_eq (address : Nat) : block.bit address = BitWrite.latestBit landed address := by
  unfold Holds at holds
  cases found : block.image with
  | none =>
    rw [found] at holds
    unfold bit word
    rw [found, holds]
    exact Word.bit_zero _
  | some image =>
    rw [found] at holds
    exact (bit_of_image found address).trans (holds.bits address)

theorem Holds.reaches_iff (write : BitWrite) :
    block.Reaches write.bitAddress ↔
      ∀ first, landed.getLast? = some first → first.firstWord ≤ write.firstWord := by
  have base := holds.base_eq
  constructor
  · intro reaches first begun
    rw [begun, Option.map_some, Option.map_eq_some_iff] at base
    obtain ⟨image, found, same⟩ := base
    exact same ▸ reaches image found
  · intro below image found
    rw [found, Option.map_some, eq_comm, Option.map_eq_some_iff] at base
    obtain ⟨first, begun, same⟩ := base
    exact same ▸ below first begun

/-- A write is refused exactly if it is not empty and starts before the image. -/
theorem Holds.refused_iff (write : BitWrite) :
    (∃ kind, block.perform write = .error kind) ↔
      0 < write.width ∧ ∃ first, landed.getLast? = some first ∧ write.firstWord < first.firstWord := by
  rcases Nat.eq_zero_or_pos write.width with empty | positive
  · rw [perform_empty block empty, empty]
    exact ⟨nofun, fun both => absurd both.1 (Nat.lt_irrefl 0)⟩
  by_cases reaches : block.Reaches write.bitAddress
  · obtain ⟨next, accepted⟩ := writeBits_accepted reaches write.width write.value
    refine ⟨fun ⟨kind, refused⟩ => (nomatch accepted.symm.trans refused), ?_⟩
    rintro ⟨-, first, begun, before⟩
    exact absurd ((holds.reaches_iff write).mp reaches first begun) (Nat.not_le.mpr before)
  · refine ⟨fun _ => ⟨positive, ?_⟩, fun _ => ⟨_, writeBits_of_not_reaches positive reaches⟩⟩
    rw [holds.reaches_iff] at reaches
    obtain ⟨first, before⟩ := Classical.not_forall.mp reaches
    obtain ⟨begun, before⟩ := Classical.not_imp.mp before
    exact ⟨first, begun, Nat.not_le.mp before⟩

/-- What a write that is not empty leaves is what all writes have left. -/
theorem Holds.land {write : BitWrite} (positive : 0 < write.width) (narrow : write.width ≤ wordBits)
    {next : ObjectBlock} (accepted : block.perform write = .ok next) :
    next.Holds (write :: landed) := by
  obtain ⟨-, written⟩ := written_of_writeBits positive narrow accepted
  obtain ⟨image, found, base, stop⟩ := written.image
  have start := firstWord_le_lastWord positive
  have last : (write.bitAddress + write.width + wordBits - 1) / wordBits = write.lastWord + 1 := by
    unfold BitWrite.lastWord wordBits
    omega
  rw [holds.base_eq] at base
  rw [last] at stop
  change image.base = _ at base
  have known := holds
  unfold Holds at known ⊢
  rw [found]
  change image.Holds (write :: landed)
  refine ⟨fun address => ?bits, ?base, ?length, ?within, ?reached⟩
  case bits =>
    rw [← bit_of_image found, written.bit, BitWrite.latestBit_cons, holds.bit_eq]
    rfl
  case base =>
    rw [base, List.getLast?_cons]
    cases landed.getLast? <;> rfl
  case length =>
    rw [base, stop]
    cases held : block.image with
    | none =>
      rw [held] at known
      subst known
      exact Nat.lt_of_lt_of_le (Nat.lt_succ_of_le start) (Nat.le_max_right ..)
    | some old =>
      rw [held] at known
      rw [known.base_eq]
      exact Nat.lt_of_lt_of_le known.base_lt (Nat.le_max_left ..)
  case within =>
    intro other member
    rw [stop]
    rcases List.mem_cons.mp member with rfl | earlier
    · exact Nat.le_max_right ..
    cases held : block.image with
    | none =>
      rw [held] at known
      subst known
      nomatch earlier
    | some old =>
      rw [held] at known
      exact Nat.lt_of_lt_of_le (known.within other earlier) (Nat.le_max_left ..)
  case reached =>
    rw [stop]
    cases held : block.image with
    | none =>
      refine ⟨write, List.mem_cons_self, (Nat.max_eq_right ?_).symm⟩
      exact Nat.le_succ_of_le start
    | some old =>
      rw [held] at known
      obtain ⟨latest, earlier, end_eq⟩ := known.reached
      rcases Nat.le_total old.stop (write.lastWord + 1) with further | short
      · exact ⟨write, List.mem_cons_self, (Nat.max_eq_right further).symm⟩
      · exact ⟨latest, List.mem_cons_of_mem _ earlier, end_eq.trans (Nat.max_eq_left short).symm⟩

end Landing

section Words

variable {block : ObjectBlock} {bitAddress : Nat}

/-- What is written replaces the bits of its field, and no others. -/
theorem bit_writeBits {width : Nat} {value : Word} (narrow : width ≤ wordBits) {next : ObjectBlock}
    (accepted : block.writeBits bitAddress width value = .ok next) (address : Nat) :
    next.bit address =
      if bitAddress ≤ address ∧ address < bitAddress + width then
        value.bit (wordBits - width + (address - bitAddress))
      else block.bit address := by
  rcases Nat.eq_zero_or_pos width with rfl | positive
  · cases accepted
    exact (if_neg (by omega)).symm
  · exact (written_of_writeBits positive narrow accepted).2.bit address

/-- The bits from a bit address on. -/
def field (block : ObjectBlock) (bitAddress : Nat) : (width : Nat) → BitVec width
  | 0 => 0#0
  | width + 1 => (field block bitAddress width).concat (block.bit (bitAddress + width))

theorem getMsbD_field (block : ObjectBlock) (bitAddress : Nat) {width i : Nat} (inside : i < width) :
    (block.field bitAddress width).getMsbD i = block.bit (bitAddress + i) := by
  induction width with
  | zero => nomatch inside
  | succ width ih =>
    rw [field, BitVec.getMsbD_concat]
    rcases Nat.lt_succ_iff_lt_or_eq.mp inside with before | rfl
    · rw [if_pos before, ih before]
    · rw [if_neg (Nat.lt_irrefl _), decide_eq_true rfl, Bool.true_and]

/-- A field that has the last bits of a word is the word cut to its width. -/
theorem field_eq {width : Nat} {value : Word} (narrow : width ≤ wordBits)
    (bits : ∀ i < width, block.bit (bitAddress + i) = value.bit (wordBits - width + i)) :
    block.field bitAddress width = value.toBitVec.setWidth width := by
  refine BitVec.eq_of_getMsbD_eq fun i inside => ?_
  rw [getMsbD_field block bitAddress inside, bits i inside, BitVec.getMsbD_setWidth]
  unfold wordBits at narrow ⊢
  rw [decide_eq_true (by omega), Bool.true_and, Word.bit]
  congr 1
  omega

end Words

end ObjectBlock

/-- A block with the writes that were made to it and were neither empty nor refused, the latest one
first. -/
structure WriteHistory where
  block : ObjectBlock
  landed : List BitWrite

namespace WriteHistory

/-- A call is made. If it is refused, nothing comes of it. -/
def call (history : WriteHistory) (write : BitWrite) : WriteHistory :=
  match history.block.perform write with
  | .ok block => ⟨block, if write.width = 0 then history.landed else write :: history.landed⟩
  | .error _ => history

/-- What a sequence of calls comes to, of which the first is made to an empty block. -/
def ofCalls (calls : List BitWrite) : WriteHistory :=
  calls.foldl call ⟨.empty, []⟩

/-- The image is what was written last. -/
structure Exact (history : WriteHistory) : Prop where
  /-- A call is refused if it is not empty and starts before the first write that landed. -/
  refused_iff : ∀ write : BitWrite, (∃ kind, history.block.perform write = .error kind) ↔
    0 < write.width ∧
      ∃ first, history.landed.getLast? = some first ∧ write.firstWord < first.firstWord
  /-- A call that is refused changes nothing, and neither does an empty one. -/
  unchanged : ∀ write : BitWrite,
    write.width = 0 ∨ (∃ kind, history.block.perform write = .error kind) →
    history.call write = history
  blank_iff : history.block.image = none ↔ history.landed = []
  base_eq : ∀ image, history.block.image = some image →
    history.landed.getLast?.map BitWrite.firstWord = some image.base
  /-- The image reaches to the last word that any write touches, and no further. -/
  within : ∀ image, history.block.image = some image → ∀ write ∈ history.landed,
    write.lastWord < image.base + image.toList.length
  reached : ∀ image, history.block.image = some image → ∃ write ∈ history.landed,
    write.lastWord + 1 = image.base + image.toList.length
  bits : ∀ image, history.block.image = some image → ∀ i word, image.toList[i]? = some word →
    ∀ j < wordBits,
      word.bit j = BitWrite.latestBit history.landed ((image.base + i) * wordBits + j)

variable {history : WriteHistory}

/-- One call keeps a block what all writes have left. -/
theorem holds_call (holds : history.block.Holds history.landed) {write : BitWrite}
    (narrow : write.width ≤ wordBits) :
    (history.call write).block.Holds (history.call write).landed := by
  unfold call
  cases performed : history.block.perform write with
  | error kind => exact holds
  | ok block =>
    dsimp only
    split
    case isTrue empty =>
      rw [ObjectBlock.perform_empty _ empty] at performed
      cases performed
      exact holds
    case isFalse full => exact holds.land (Nat.pos_of_ne_zero full) narrow performed

theorem holds_ofCalls {calls : List BitWrite} (narrow : ∀ write ∈ calls, write.width ≤ wordBits) :
    (ofCalls calls).block.Holds (ofCalls calls).landed := by
  induction calls using List.reverseRecOn with
  | nil => exact rfl
  | append_singleton calls write ih =>
    have earlier := ih fun other member => narrow other (List.mem_append_left _ member)
    unfold ofCalls
    rw [List.foldl_append]
    exact holds_call earlier (narrow write (List.mem_append_right _ (List.mem_singleton_self _)))

theorem call_unchanged {write : BitWrite}
    (nothing : write.width = 0 ∨ ∃ kind, history.block.perform write = .error kind) :
    history.call write = history := by
  unfold call
  rcases nothing with empty | ⟨kind, refused⟩
  · rw [ObjectBlock.perform_empty _ empty, empty]
    rfl
  · rw [refused]

/-- Whatever is called for, an image is what was written last. -/
theorem exact_ofCalls {calls : List BitWrite} (narrow : ∀ write ∈ calls, write.width ≤ wordBits) :
    (ofCalls calls).Exact := by
  have holds := holds_ofCalls narrow
  have imaged : ∀ image, (ofCalls calls).block.image = some image →
      image.Holds (ofCalls calls).landed := by
    intro image found
    unfold ObjectBlock.Holds at holds
    rwa [found] at holds
  constructor
  case refused_iff => exact holds.refused_iff
  case unchanged => exact fun _ => call_unchanged
  case blank_iff =>
    unfold ObjectBlock.Holds at holds
    cases found : (ofCalls calls).block.image with
    | none =>
      rw [found] at holds
      exact ⟨fun _ => holds, fun _ => rfl⟩
    | some image =>
      refine ⟨nofun, fun empty => ?_⟩
      have first := (imaged image found).base_eq
      rw [empty] at first
      nomatch first
  case base_eq => exact fun image found => (imaged image found).base_eq
  case within =>
    intro image found write member
    exact (imaged image found).within write member
  case reached =>
    exact fun image found => (imaged image found).reached
  case bits =>
    intro image found i word listed j inside
    rw [ImageWords.bit_toList listed inside]
    exact (imaged image found).bits _

/-- Fields that go over the ends of words and lie over one another, an empty one before the image, and
one there that is refused. -/
def sampleCalls : List BitWrite :=
  [⟨700, 8, 0xab⟩, ⟨64, 0, 1⟩, ⟨64, 16, 7⟩, ⟨702, 64, 0xffff⟩, ⟨640, 4, 9⟩]

theorem exact_sampleCalls :
    (∀ write ∈ sampleCalls, write.width ≤ wordBits) ∧ (ofCalls sampleCalls).Exact :=
  ⟨by decide, exact_ofCalls (by decide)⟩

/-- An empty field that starts before the image is not refused. -/
theorem empty_accepted :
    ¬((∃ kind, (ofCalls [⟨640, 64, 1⟩]).block.perform ⟨64, 0, 0⟩ = .error kind) ↔
      ∃ first, (ofCalls [⟨640, 64, 1⟩]).landed.getLast? = some first ∧
        BitWrite.firstWord ⟨64, 0, 0⟩ < first.firstWord) := by
  intro claimed
  obtain ⟨kind, refused⟩ := claimed.mpr ⟨⟨640, 64, 1⟩, by decide, by decide⟩
  nomatch refused

end WriteHistory

end CrayAssembler
