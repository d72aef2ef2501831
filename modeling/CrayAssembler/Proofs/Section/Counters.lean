import CrayAssembler.Module.Finish
import CrayAssembler.Proofs.Section.Buffer

namespace CrayAssembler

namespace ObjectBlock

/-- A field of the image, given as tables give it. -/
def Covers (block : ObjectBlock) (bitAddress : Word) (fieldLength : UInt32) : Prop :=
  ∃ image bits, block.image = some image ∧ bitAddress = UInt64.ofNat bits ∧
    image.base * wordBits ≤ bits ∧ bits < image.stop * wordBits ∧
    bits + fieldLength.toNat ≤ image.stop * wordBits

end ObjectBlock

namespace Section

/-- How the counters of a section lie to one another. -/
structure Ordered (sec : Section) : Prop where
  congruent : sec.locationBits % wordBits = sec.originBits % wordBits
  offset_le : sec.originOffset * wordBits ≤ sec.originBits
  first_le : ∀ first, sec.firstBits = some first → first ≤ sec.originBits
  origin_le : sec.originBits ≤ sec.highBits

/-- How an image lies in its section. -/
structure Framed (sec : Section) (image : ImageWords) : Prop where
  first_le : ∃ first, sec.firstBits = some first ∧ first / wordBits ≤ image.base
  base_lt : image.base < image.stop
  base_le : image.base ≤ sec.originWord
  stop_le : image.stop ≤ sec.highWord

/-- What holds of a section in a module with these numbers of sections and externals. -/
structure Sound (sections externals : Nat) (sec : Section) : Prop where
  ordered : sec.Ordered
  framed : ∀ image, sec.block.image = some image → sec.Framed image
  relocations : ∀ entry ∈ sec.block.relocations,
    sec.block.Covers entry.bitAddress entry.fieldLength ∧
      ∃ id < sections, entry.targetBlock = UInt64.ofNat id
  externals : ∀ entry ∈ sec.block.externals,
    sec.block.Covers entry.bitAddress entry.fieldLength ∧
      ∃ index < externals, entry.externalIndex = UInt64.ofNat index

variable {sections externals : Nat} {sec : Section}

/-- A section of which nothing has been written yet. -/
theorem sound_blank (ordered : sec.Ordered) (blank : sec.block = .empty) :
    sec.Sound sections externals where
  ordered := ordered
  framed := by
    intro image found
    rw [blank] at found
    nomatch found
  relocations := by
    rw [blank]
    exact fun _ => nofun
  externals := by
    rw [blank]
    exact fun _ => nofun

theorem sound_make (name : String) (type : SectionType) (residency : Residency) :
    (make name type residency).Sound sections externals :=
  sound_blank ⟨rfl, Nat.le_refl 0, nofun, Nat.le_refl 0⟩ rfl

theorem sound_restart (sec : Section) : sec.restart.Sound sections externals :=
  sound_blank ⟨rfl, Nat.le_refl _, nofun, Nat.le_refl _⟩ rfl

theorem Sound.mono (sound : sec.Sound sections externals) {moreSections moreExternals : Nat}
    (more : sections ≤ moreSections) (moreToo : externals ≤ moreExternals) :
    sec.Sound moreSections moreExternals where
  ordered := sound.ordered
  framed := sound.framed
  relocations := by
    intro entry member
    obtain ⟨covers, id, known, target⟩ := sound.relocations entry member
    exact ⟨covers, id, Nat.lt_of_lt_of_le known more, target⟩
  externals := by
    intro entry member
    obtain ⟨covers, index, known, target⟩ := sound.externals entry member
    exact ⟨covers, index, Nat.lt_of_lt_of_le known moreToo, target⟩

theorem advance_zero (sec : Section) : sec.advance 0 = sec := rfl

theorem advance_of_pos (sec : Section) {bits : Nat} (positive : 0 < bits) :
    sec.advance bits = { sec with
      firstBits := some (sec.firstBits.getD sec.originBits)
      locationBits := sec.locationBits + bits
      originBits := sec.originBits + bits
      highBits := max sec.highBits (sec.originBits + bits) } :=
  if_neg (Nat.pos_iff_ne_zero.mp positive)

@[simp] theorem advance_block (sec : Section) (bits : Nat) : (sec.advance bits).block = sec.block := by
  unfold advance
  split <;> rfl

@[simp] theorem advance_type (sec : Section) (bits : Nat) : (sec.advance bits).type = sec.type := by
  unfold advance
  split <;> rfl

@[simp] theorem advance_originBits (sec : Section) (bits : Nat) :
    (sec.advance bits).originBits = sec.originBits + bits := by
  unfold advance
  split
  · omega
  · rfl

/-- Moving on twice is moving on by the sum, whatever is written in between. -/
theorem advance_advance (sec : Section) (block : ObjectBlock) (first second : Nat)
    (ordered : sec.Ordered) :
    ({ sec.advance first with block } : Section).advance second =
      ({ sec with block } : Section).advance (first + second) := by
  have high := ordered.origin_le
  rcases Nat.eq_zero_or_pos first with rfl | firstPositive
  · rw [Nat.zero_add, advance_zero]
  rcases Nat.eq_zero_or_pos second with rfl | secondPositive
  · rw [Nat.add_zero, advance_zero, advance_of_pos _ firstPositive, advance_of_pos _ firstPositive]
  rw [advance_of_pos _ firstPositive, advance_of_pos _ secondPositive,
    advance_of_pos _ (Nat.add_pos_left firstPositive second)]
  simp only [Option.getD_some, Nat.add_assoc]
  congr 1
  omega

theorem Ordered.advance (ordered : sec.Ordered) (bits : Nat) : (sec.advance bits).Ordered := by
  rcases Nat.eq_zero_or_pos bits with rfl | positive
  · exact ordered
  obtain ⟨congruent, offset, first, high⟩ := ordered
  rw [advance_of_pos sec positive]
  refine ⟨?_, ?_, ?_, ?_⟩
  · change (sec.locationBits + bits) % wordBits = (sec.originBits + bits) % wordBits
    rw [Nat.add_mod, congruent, ← Nat.add_mod]
  · change sec.originOffset * wordBits ≤ sec.originBits + bits
    omega
  · rintro _ ⟨⟩
    change sec.firstBits.getD sec.originBits ≤ sec.originBits + bits
    cases found : sec.firstBits with
    | none => exact Nat.le_add_right _ _
    | some start => exact Nat.le_trans (first start found) (Nat.le_add_right _ _)
  · exact Nat.le_max_right _ _

theorem Framed.advance {image : ImageWords} (framed : sec.Framed image) (bits : Nat) :
    (sec.advance bits).Framed image := by
  rcases Nat.eq_zero_or_pos bits with rfl | positive
  · exact framed
  obtain ⟨⟨first, found, first_le⟩, base_lt, base_le, stop_le⟩ := framed
  rw [advance_of_pos sec positive]
  refine ⟨⟨first, by rw [found]; rfl, first_le⟩, base_lt, ?_, ?_⟩
  · exact Nat.le_trans base_le (Nat.div_le_div_right (Nat.le_add_right _ _))
  · refine Nat.le_trans stop_le (Nat.div_le_div_right ?_)
    have high := Nat.le_max_left sec.highBits (sec.originBits + bits)
    change sec.highBits + wordBits - 1 ≤ max sec.highBits (sec.originBits + bits) + wordBits - 1
    omega

/-- Counting bits keeps a section sound. -/
theorem Sound.advance (sound : sec.Sound sections externals) (bits : Nat) :
    (sec.advance bits).Sound sections externals where
  ordered := sound.ordered.advance bits
  framed := by
    rw [advance_block]
    exact fun image found => (sound.framed image found).advance bits
  relocations := by
    rw [advance_block]
    exact sound.relocations
  externals := by
    rw [advance_block]
    exact sound.externals

/-- At a word boundary the location counter can be set to any word. -/
theorem Sound.setLocationWord (sound : sec.Sound sections externals)
    (aligned : sec.originBits % wordBits = 0) (word : Nat) :
    (sec.setLocationWord word).Sound sections externals where
  ordered := {
    congruent := by
      rw [Section.setLocationWord, aligned]
      exact Nat.mul_mod_left word wordBits
    offset_le := sound.ordered.offset_le
    first_le := sound.ordered.first_le
    origin_le := sound.ordered.origin_le }
  framed image found :=
    have framed := sound.framed image found
    ⟨framed.first_le, framed.base_lt, framed.base_le, framed.stop_le⟩
  relocations := sound.relocations
  externals := sound.externals

theorem originBits_le_word (aligned : sec.originBits % wordBits = 0) {word : Nat}
    (ahead : sec.originWord ≤ word) : sec.originBits ≤ word * wordBits := by
  have whole : sec.originWord * wordBits = sec.originBits :=
    Nat.div_mul_cancel (Nat.dvd_of_mod_eq_zero aligned)
  rw [← whole]
  exact Nat.mul_le_mul_right wordBits ahead

/-- At a word boundary both counters can be set to a word that is not behind, which places the
section. -/
theorem Sound.setOriginWord (sound : sec.Sound sections externals)
    (aligned : sec.originBits % wordBits = 0) {word : Nat} (ahead : sec.originWord ≤ word) :
    ({ sec.setOriginWord word with placed := true } : Section).Sound sections externals where
  ordered := by
    have forward := originBits_le_word aligned ahead
    refine ⟨rfl, ?_, ?_, Nat.le_max_right _ _⟩
    · exact Nat.le_trans sound.ordered.offset_le forward
    · exact fun first found => Nat.le_trans (sound.ordered.first_le first found) forward
  framed := by
    intro image found
    have framed := sound.framed image found
    refine ⟨framed.first_le, framed.base_lt, ?_, ?_⟩
    · exact Nat.le_trans framed.base_le
        (Nat.div_le_div_right (originBits_le_word aligned ahead))
    · refine Nat.le_trans framed.stop_le (Nat.div_le_div_right ?_)
      have high := Nat.le_max_left sec.highBits (word * wordBits)
      change sec.highBits + wordBits - 1 ≤ max sec.highBits (word * wordBits) + wordBits - 1
      omega
  relocations := sound.relocations
  externals := sound.externals

/-- What is written at the origin counter is never refused. -/
theorem writeBits_accepted (framed : ∀ image, sec.block.image = some image → sec.Framed image)
    (width : Nat) (bits : Word) :
    ∃ block, sec.block.writeBits sec.originBits width bits = .ok block :=
  ObjectBlock.writeBits_accepted (fun image found => (framed image found).base_le) width bits

/-- What a write at the origin counter does to the block: the tables stay as they are, and the image
reaches to the last word that was written. -/
theorem writeBits_image {width : Nat} {bits : Word} {block : ObjectBlock} (positive : 0 < width)
    (narrow : width ≤ wordBits)
    (written : sec.block.writeBits sec.originBits width bits = .ok block) :
    block.relocations = sec.block.relocations ∧ block.externals = sec.block.externals ∧
      ∃ image, block.image = some image ∧
        image.base = (sec.block.image.map (·.base)).getD sec.originWord ∧
        image.stop = max ((sec.block.image.map (·.stop)).getD sec.originWord)
          ((sec.originBits + width + wordBits - 1) / wordBits) :=
  have leaves := (ObjectBlock.written_of_writeBits positive narrow written).2
  ⟨leaves.relocations, leaves.externals, leaves.image⟩

theorem covers_write {width : Nat} {bits : Word} {block : ObjectBlock} (positive : 0 < width)
    (narrow : width ≤ wordBits)
    (written : sec.block.writeBits sec.originBits width bits = .ok block) {bitAddress : Word}
    {fieldLength : UInt32} (covers : sec.block.Covers bitAddress fieldLength) :
    block.Covers bitAddress fieldLength := by
  obtain ⟨old, place, found, address, base_le, lt_stop, stop_le⟩ := covers
  obtain ⟨-, -, image, new, base, stop⟩ := writeBits_image positive narrow written
  rw [found, Option.map_some, Option.getD_some] at base stop
  have further : old.stop * wordBits ≤ image.stop * wordBits := by
    rw [stop]
    exact Nat.mul_le_mul_right wordBits (Nat.le_max_left _ _)
  exact ⟨image, place, new, address, by rw [base]; exact base_le,
    Nat.lt_of_lt_of_le lt_stop further, Nat.le_trans stop_le further⟩

/-- The field that is written is covered. -/
theorem covers_written (sound : sec.Sound sections externals) {width : Nat} {bits : Word}
    {block : ObjectBlock} (positive : 0 < width) (narrow : width ≤ wordBits)
    (written : sec.block.writeBits sec.originBits width bits = .ok block) {fieldLength : UInt32}
    (inside : fieldLength.toNat ≤ width) :
    block.Covers (UInt64.ofNat sec.originBits) fieldLength := by
  obtain ⟨-, -, image, new, base, stop⟩ := writeBits_image positive narrow written
  have after : (sec.originBits + width + wordBits - 1) / wordBits ≤ image.stop := by
    rw [stop]
    exact Nat.le_max_right _ _
  have reached : sec.originBits + width ≤ image.stop * wordBits := by
    unfold wordBits at after ⊢
    omega
  refine ⟨image, sec.originBits, new, rfl, ?_, by omega, by omega⟩
  have before : image.base ≤ sec.originWord := by
    rw [base]
    cases found : sec.block.image with
    | none => exact Nat.le_refl _
    | some old => exact (sound.framed old found).base_le
  exact Nat.le_trans (Nat.mul_le_mul_right wordBits before) (Nat.div_mul_le_self _ _)

theorem framed_written (sound : sec.Sound sections externals) {width : Nat} {bits : Word}
    {block : ObjectBlock} (positive : 0 < width) (narrow : width ≤ wordBits)
    (written : sec.block.writeBits sec.originBits width bits = .ok block) {image : ImageWords}
    (found : block.image = some image) :
    ({ sec with block }.advance width : Section).Framed image := by
  obtain ⟨-, -, new, same, base, stop⟩ := writeBits_image positive narrow written
  obtain rfl : new = image := Option.some.inj (same.symm.trans found)
  have end_le : (sec.originBits + width + wordBits - 1) / wordBits ≤
      (max sec.highBits (sec.originBits + width) + wordBits - 1) / wordBits :=
    Nat.div_le_div_right (by omega)
  have start_lt : sec.originWord < (sec.originBits + width + wordBits - 1) / wordBits := by
    unfold originWord wordBits
    omega
  have origin_le : sec.originWord ≤ (sec.originBits + width) / wordBits :=
    Nat.div_le_div_right (Nat.le_add_right _ _)
  rw [advance_of_pos _ positive]
  cases image : sec.block.image with
  | none =>
    rw [image] at base stop
    change new.base = sec.originWord at base
    change new.stop = max sec.originWord _ at stop
    refine ⟨⟨_, rfl, ?_⟩, by omega, by rw [base]; exact origin_le, ?_⟩
    · rw [base]
      refine Nat.div_le_div_right ?_
      change sec.firstBits.getD sec.originBits ≤ sec.originBits
      cases first : sec.firstBits with
      | none => exact Nat.le_refl _
      | some start => exact sound.ordered.first_le start first
    · change new.stop ≤ (max sec.highBits (sec.originBits + width) + wordBits - 1) / wordBits
      omega
  | some old =>
    rw [image] at base stop
    change new.base = old.base at base
    change new.stop = max old.stop _ at stop
    obtain ⟨⟨first, started, first_le⟩, base_lt, base_le, stop_le⟩ := sound.framed old image
    refine ⟨⟨first, by rw [started]; rfl, by rw [base]; exact first_le⟩, by omega, ?_, ?_⟩
    · rw [base]
      exact Nat.le_trans base_le origin_le
    · have high : sec.highWord ≤ (max sec.highBits (sec.originBits + width) + wordBits - 1) /
          wordBits := Nat.div_le_div_right (by omega)
      change new.stop ≤ (max sec.highBits (sec.originBits + width) + wordBits - 1) / wordBits
      omega

/-- Placing bits at the origin counter keeps a section sound. -/
theorem Sound.write (sound : sec.Sound sections externals) {width : Nat} {bits : Word}
    {block : ObjectBlock} (narrow : width ≤ wordBits)
    (written : sec.block.writeBits sec.originBits width bits = .ok block) :
    ({ sec with block }.advance width : Section).Sound sections externals := by
  rcases Nat.eq_zero_or_pos width with rfl | positive
  · cases written
    exact sound
  obtain ⟨relocations, others, -⟩ := writeBits_image positive narrow written
  constructor
  case ordered =>
    have ordered : ({ sec with block } : Section).Ordered := ⟨sound.ordered.congruent,
      sound.ordered.offset_le, sound.ordered.first_le, sound.ordered.origin_le⟩
    exact ordered.advance width
  case framed =>
    rw [advance_block]
    exact fun image found => framed_written sound positive narrow written found
  case relocations =>
    rw [advance_block]
    change ∀ entry ∈ block.relocations, _
    rw [relocations]
    intro entry member
    obtain ⟨covers, target⟩ := sound.relocations entry member
    exact ⟨covers_write positive narrow written covers, target⟩
  case externals =>
    rw [advance_block]
    change ∀ entry ∈ block.externals, _
    rw [others]
    intro entry member
    obtain ⟨covers, target⟩ := sound.externals entry member
    exact ⟨covers_write positive narrow written covers, target⟩

/-- Whole words are placed one after another, and none is refused. -/
theorem Sound.writeWords (sound : sec.Sound sections externals) (words : List Word) :
    ∃ block, sec.block.writeWords sec.originBits words = (block, none) ∧
      ({ sec with block }.advance (words.length * wordBits) : Section).Sound sections
        externals := by
  induction words generalizing sec with
  | nil => exact ⟨sec.block, rfl, by rw [List.length_nil, Nat.zero_mul]; exact sound⟩
  | cons word words ih =>
    obtain ⟨first, written⟩ := writeBits_accepted sound.framed wordBits word
    obtain ⟨block, rest, final⟩ := ih (sound.write (Nat.le_refl _) written)
    rw [advance_block, advance_originBits] at rest
    refine ⟨block, ?_, ?_⟩
    · rw [ObjectBlock.writeWords, written]
      exact rest
    · have ordered : ({ sec with block := first } : Section).Ordered := ⟨sound.ordered.congruent,
        sound.ordered.offset_le, sound.ordered.first_le, sound.ordered.origin_le⟩
      rw [advance_advance _ _ _ _ ordered] at final
      rw [List.length_cons, Nat.succ_mul, Nat.add_comm]
      exact final

/-- A change of the tables alone, which plays no part in writing. -/
structure TableChange (add : ObjectBlock → ObjectBlock) : Prop where
  image_eq : ∀ block, (add block).image = block.image
  writeBits_eq : ∀ block bitAddress width bits,
    (add block).writeBits bitAddress width bits =
      (block.writeBits bitAddress width bits).map add

theorem TableChange.of_kept {add : ObjectBlock → ObjectBlock}
    (kept : ∀ block, (add block).buffer = block.buffer)
    (apart : ∀ (block : ObjectBlock) (buffer : ImageBuffer) (tidy : buffer.Tidy),
      add { block with buffer, tidy } = { add block with buffer, tidy }) : TableChange add where
  image_eq block := congrArg ImageBuffer.image (kept block)
  writeBits_eq block bitAddress width bits := by
    cases performed : block.buffer.writeBits bitAddress width bits with
    | ok buffer =>
      have same : (add block).buffer.writeBits bitAddress width bits = .ok buffer := by
        rw [kept, performed]
      rw [ObjectBlock.writeBits_of_buffer performed, ObjectBlock.writeBits_of_buffer same]
      exact congrArg Except.ok (apart block buffer _).symm
    | error kind =>
      have same : (add block).buffer.writeBits bitAddress width bits = .error kind := by
        rw [kept, performed]
      rw [ObjectBlock.writeBits_refused performed, ObjectBlock.writeBits_refused same]
      rfl

theorem tableChange_addRelocation (entry : Object.Relocation) :
    TableChange (·.addRelocation entry) :=
  .of_kept (fun _ => rfl) fun _ _ _ => rfl

theorem tableChange_addExternal (entry : Object.ExternalReference) :
    TableChange (·.addExternal entry) :=
  .of_kept (fun _ => rfl) fun _ _ _ => rfl

theorem Sound.addRelocation (sound : sec.Sound sections externals) {entry : Object.Relocation}
    (covers : sec.block.Covers entry.bitAddress entry.fieldLength)
    (target : ∃ id < sections, entry.targetBlock = UInt64.ofNat id) :
    ({ sec with block := sec.block.addRelocation entry } : Section).Sound sections externals where
  ordered := ⟨sound.ordered.congruent, sound.ordered.offset_le, sound.ordered.first_le,
    sound.ordered.origin_le⟩
  framed image found :=
    have framed := sound.framed image found
    ⟨framed.first_le, framed.base_lt, framed.base_le, framed.stop_le⟩
  relocations := by
    intro other member
    rcases List.mem_append.mp member with old | new
    · exact sound.relocations other old
    · rw [List.mem_singleton.mp new]
      exact ⟨covers, target⟩
  externals := sound.externals

theorem Sound.addExternal (sound : sec.Sound sections externals)
    {entry : Object.ExternalReference}
    (covers : sec.block.Covers entry.bitAddress entry.fieldLength)
    (target : ∃ index < externals, entry.externalIndex = UInt64.ofNat index) :
    ({ sec with block := sec.block.addExternal entry } : Section).Sound sections externals where
  ordered := ⟨sound.ordered.congruent, sound.ordered.offset_le, sound.ordered.first_le,
    sound.ordered.origin_le⟩
  framed image found :=
    have framed := sound.framed image found
    ⟨framed.first_le, framed.base_lt, framed.base_le, framed.stop_le⟩
  relocations := sound.relocations
  externals := by
    intro other member
    rcases List.mem_append.mp member with old | new
    · exact sound.externals other old
    · rw [List.mem_singleton.mp new]
      exact ⟨covers, target⟩

theorem advance_withBlock (sec : Section) (block : ObjectBlock) {width : Nat}
    (positive : 0 < width) :
    ({ sec with block } : Section).advance width = { sec.advance width with block } := by
  rw [advance_of_pos _ positive, advance_of_pos _ positive]

/-- A field is written, and a relocation of it recorded. -/
theorem Sound.writeRelocation (sound : sec.Sound sections externals) {width : Nat} {bits : Word}
    {block : ObjectBlock} (positive : 0 < width) (narrow : width ≤ wordBits)
    (written : sec.block.writeBits sec.originBits width bits = .ok block)
    {entry : Object.Relocation} (place : entry.bitAddress = UInt64.ofNat sec.originBits)
    (inside : entry.fieldLength.toNat ≤ width)
    (target : ∃ id < sections, entry.targetBlock = UInt64.ofNat id) :
    ({ sec with block := block.addRelocation entry }.advance width : Section).Sound sections
      externals := by
  have placed := sound.write narrow written
  have covers := covers_written sound positive narrow written inside
  rw [advance_withBlock sec block positive] at placed
  rw [advance_withBlock sec _ positive]
  exact placed.addRelocation (by rw [place]; exact covers) target

/-- A field is written, and a reference of it to an external recorded. -/
theorem Sound.writeExternal (sound : sec.Sound sections externals) {width : Nat} {bits : Word}
    {block : ObjectBlock} (positive : 0 < width) (narrow : width ≤ wordBits)
    (written : sec.block.writeBits sec.originBits width bits = .ok block)
    {entry : Object.ExternalReference} (place : entry.bitAddress = UInt64.ofNat sec.originBits)
    (inside : entry.fieldLength.toNat ≤ width)
    (target : ∃ index < externals, entry.externalIndex = UInt64.ofNat index) :
    ({ sec with block := block.addExternal entry }.advance width : Section).Sound sections
      externals := by
  have placed := sound.write narrow written
  have covers := covers_written sound positive narrow written inside
  rw [advance_withBlock sec block positive] at placed
  rw [advance_withBlock sec _ positive]
  exact placed.addExternal (by rw [place]; exact covers) target

end Section

end CrayAssembler
