import CrayAssembler.Proofs.Module.LiteralPool
import CrayAssembler.Proofs.Section.Counters
import CrayAssembler.Proofs.Symbol.Table
import Mathlib.Algebra.Group.Nat.Defs

namespace CrayAssembler

namespace Module

structure Sound (module : Module) : Prop where
  sections : ∀ sec ∈ module.sections,
    sec.Sound module.sections.length module.externals.length
  symbols : module.symbols.Refers module.sections.length module.externals.length
  literals_lt : literalsSection < module.sections.length

variable {module : Module}

theorem sound_make (name : String) : (make name).Sound where
  sections := by
    intro sec member
    simp only [make, List.mem_cons, List.not_mem_nil, or_false] at member
    obtain rfl | rfl := member <;> exact Section.sound_make _ _ _
  symbols := SymbolTable.refers_empty
  literals_lt := Nat.le_refl 2

/-- Only sections, symbols and externals count. -/
theorem Sound.of_same (sound : module.Sound) {other : Module}
    (sections : other.sections = module.sections) (symbols : other.symbols = module.symbols)
    (externals : other.externals = module.externals) : other.Sound where
  sections := by
    rw [sections, externals]
    exact sound.sections
  symbols := by
    rw [sections, symbols, externals]
    exact sound.symbols
  literals_lt := by
    rw [sections]
    exact sound.literals_lt

theorem Sound.withSymbols (sound : module.Sound) {symbols : SymbolTable}
    (refers : symbols.Refers module.sections.length module.externals.length) :
    ({ module with symbols } : Module).Sound :=
  ⟨sound.sections, refers, sound.literals_lt⟩

theorem section?_lt {id : SectionId} {sec : Section} (found : module.section? id = some sec) :
    id < module.sections.length :=
  (List.getElem?_eq_some_iff.mp found).1

theorem section?_of_lt {id : SectionId} (known : id < module.sections.length) :
    module.section? id = some (module.getSection id) := by
  unfold section? getSection
  rw [List.getD_eq_getElem?_getD, List.getElem?_eq_getElem known, Option.getD_some]

theorem mem_of_section? {id : SectionId} {sec : Section} (found : module.section? id = some sec) :
    sec ∈ module.sections :=
  List.mem_of_getElem? found

/-- A section of a module in which one section was changed is the changed one or was there
before. -/
theorem mem_modifySection {id : SectionId} {change : Section → Section} {sec : Section}
    (member : sec ∈ (module.modifySection id change).sections) :
    sec ∈ module.sections ∨ ∃ old, module.section? id = some old ∧ sec = change old := by
  obtain ⟨place, lookup⟩ := List.getElem?_of_mem member
  unfold modifySection at lookup
  rw [List.getElem?_modify] at lookup
  obtain ⟨old, found, rfl⟩ := Option.map_eq_some_iff.mp lookup
  by_cases same : id = place
  · rw [if_pos same]
    exact .inr ⟨old, same ▸ found, rfl⟩
  · rw [if_neg same]
    exact .inl (List.mem_of_getElem? found)

@[simp] theorem length_modifySection (module : Module) (id : SectionId)
    (change : Section → Section) :
    (module.modifySection id change).sections.length = module.sections.length :=
  List.length_modify ..

/-- The block that a section gives. -/
theorem toObject_mem {module : Module} {id : SectionId} (known : id < module.sections.length) :
    (module.getSection id).toObject id ∈ module.toObject.blocks := by
  have found := Option.some.inj ((List.getElem?_eq_getElem known).symm.trans (section?_of_lt known))
  rw [← found]
  exact List.mem_mapIdx.mpr ⟨id, known, rfl⟩

theorem getSection_modifySection (module : Module) (id other : SectionId)
    (change : Section → Section) :
    (module.modifySection id change).getSection other =
      if id = other ∧ other < module.sections.length then change (module.getSection other)
      else module.getSection other := by
  unfold getSection modifySection
  dsimp only
  rw [List.getD_eq_getElem?_getD, List.getD_eq_getElem?_getD, List.getElem?_modify]
  cases found : module.sections[other]? with
  | none =>
    rw [if_neg fun both => Nat.not_lt.mpr (List.getElem?_eq_none_iff.mp found) both.2]
    rfl
  | some sec =>
    have known := (List.getElem?_eq_some_iff.mp found).1
    by_cases same : id = other
    · rw [if_pos ⟨same, known⟩, Option.map_eq_map, Option.map_some, if_pos same]
      rfl
    · rw [if_neg fun both => same both.1, Option.map_eq_map, Option.map_some, if_neg same]

theorem Sound.modifySection (sound : module.Sound) {id : SectionId} {change : Section → Section}
    (kept : ∀ sec, module.section? id = some sec →
      (change sec).Sound module.sections.length module.externals.length) :
    (module.modifySection id change).Sound where
  sections := by
    intro sec member
    rw [length_modifySection]
    rcases mem_modifySection member with old | ⟨old, found, rfl⟩
    · exact sound.sections sec old
    · exact kept old found
  symbols := by
    rw [length_modifySection]
    exact sound.symbols
  literals_lt := by
    rw [length_modifySection]
    exact sound.literals_lt

theorem Sound.addSection (sound : module.Sound) (name : String) (type : SectionType)
    (residency : Residency) : (module.addSection name type residency).Sound := by
  have more : module.sections.length ≤
      (module.addSection name type residency).sections.length := by
    rw [Module.addSection, List.length_append]
    omega
  refine ⟨?_, sound.symbols.mono more (Nat.le_refl _), Nat.lt_of_lt_of_le sound.literals_lt more⟩
  intro sec member
  rcases List.mem_append.mp member with old | new
  · exact (sound.sections sec old).mono more (Nat.le_refl _)
  · rw [List.mem_singleton.mp new]
    exact Section.sound_make name type residency

theorem externals_le_addExternal (module : Module) (key : SymbolKey) :
    module.externals.length ≤ (module.addExternal key).externals.length := by
  unfold addExternal
  split
  · exact Nat.le_refl _
  · rw [List.length_append]
    omega

@[simp] theorem addExternal_sections (module : Module) (key : SymbolKey) :
    (module.addExternal key).sections = module.sections := by
  unfold addExternal
  split <;> rfl

@[simp] theorem addExternal_symbols (module : Module) (key : SymbolKey) :
    (module.addExternal key).symbols = module.symbols := by
  unfold addExternal
  split <;> rfl

theorem Sound.addExternal (sound : module.Sound) (key : SymbolKey) :
    (module.addExternal key).Sound := by
  have more := module.externals_le_addExternal key
  constructor
  case sections =>
    rw [addExternal_sections]
    exact fun sec member => (sound.sections sec member).mono (Nat.le_refl _) more
  case symbols =>
    rw [addExternal_sections, addExternal_symbols]
    exact sound.symbols.mono (Nat.le_refl _) more
  case literals_lt =>
    rw [addExternal_sections]
    exact sound.literals_lt

/-- The place that a symbol has, or would get, among the externals is there once it is added. -/
theorem externalIndex_lt_addExternal (module : Module) (key : SymbolKey) :
    module.externalIndex key < (module.addExternal key).externals.length := by
  unfold externalIndex addExternal
  split
  case isTrue known =>
    exact List.idxOf_lt_length_of_mem (List.contains_iff_mem.mp known)
  case isFalse unknown =>
    have bound := List.idxOf_le_length (a := key) (l := module.externals)
    rw [List.length_append, List.length_singleton]
    omega

theorem Sound.declareExternal (sound : module.Sound) {key : SymbolKey} {symbols : SymbolTable}
    (made : module.symbols.makeExternal key (module.externalIndex key) = .ok symbols) :
    ({ module.addExternal key with symbols } : Module).Sound := by
  have added := sound.addExternal key
  refine added.withSymbols ?_
  have refers := added.symbols
  rw [addExternal_symbols] at refers
  exact refers.makeExternal (module.externalIndex_lt_addExternal key) made

/-- The literals are placed without being refused, wherever their section ends. -/
theorem Sound.placeLiterals (sound : module.Sound) :
    module.placeLiterals.2 = none ∧ module.placeLiterals.1.Sound := by
  have found := section?_of_lt sound.literals_lt
  obtain ⟨block, written, placed⟩ :=
    (sound.sections _ (mem_of_section? found)).writeWords module.literals.words
  rw [placeLiterals_eq, written]
  exact ⟨rfl, sound.modifySection fun _ _ => placed⟩

theorem Sound.declareImplicitExternals (sound : module.Sound) :
    module.declareImplicitExternals.Sound := by
  unfold Module.declareImplicitExternals
  generalize module.symbols.undefined = keys
  induction keys generalizing module with
  | nil => exact sound
  | cons key keys ih =>
    rw [List.foldl_cons]
    refine ih ?_
    split
    · exact sound
    · split
      case h_1 symbols made => exact sound.declareExternal made
      case h_2 => exact sound.addExternal key

theorem length_layOutFrom (next : Nat) (sections : List Section) :
    (layOutFrom next sections).length = sections.length := by
  induction sections generalizing next with
  | nil => rfl
  | cons sec sections ih =>
    unfold layOutFrom
    split
    · exact congrArg Nat.succ (ih _)
    · exact congrArg Nat.succ (ih _)

theorem length_sections_preparePassTwo (module : Module) :
    module.preparePassTwo.sections.length = module.sections.length := by
  unfold preparePassTwo
  rw [List.length_map]
  split
  · exact length_layOutFrom 0 module.sections
  · rfl

theorem Sound.preparePassTwo (sound : module.Sound) : module.preparePassTwo.Sound := by
  have length := module.length_sections_preparePassTwo
  constructor
  case sections =>
    intro sec member
    obtain ⟨old, -, rfl⟩ := List.mem_map.mp member
    exact Section.sound_restart old
  case symbols =>
    rw [length]
    exact sound.symbols.adjust _
  case literals_lt =>
    rw [length]
    exact sound.literals_lt

end Module

namespace Object

/-- A field lies inside the bits of an image. -/
def Image.Covers (image : Image) (bitAddress : Word) (fieldLength : UInt32) : Prop :=
  image.loadWord.toNat * wordBits ≤ bitAddress.toNat ∧
    bitAddress.toNat + fieldLength.toNat ≤
      (image.loadWord.toNat + image.words.length) * wordBits

/-- An object module whose images lie in their blocks, and whose tables name fields of the images,
blocks of the module and externals that there are. -/
structure Module.Fits (module : Module) : Prop where
  image_le : ∀ block ∈ module.blocks, ∀ image, block.image = some image →
    image.loadWord.toNat + image.words.length ≤ block.size.toNat
  relocation_covered : ∀ block ∈ module.blocks, ∀ entry ∈ block.relocations,
    ∃ image, block.image = some image ∧ image.Covers entry.bitAddress entry.fieldLength
  external_covered : ∀ block ∈ module.blocks, ∀ entry ∈ block.externals,
    ∃ image, block.image = some image ∧ image.Covers entry.bitAddress entry.fieldLength
  target_known : ∀ block ∈ module.blocks, ∀ entry ∈ block.relocations,
    ∃ target ∈ module.blocks, target.index = entry.targetBlock
  external_lt : ∀ block ∈ module.blocks, ∀ entry ∈ block.externals,
    entry.externalIndex.toNat < module.externals.length

end Object

namespace Section

variable {sections externals : Nat} {sec : Section}

/-- No bit was placed beyond what a word can count. -/
def Counted (sec : Section) : Prop := sec.highBits < 2 ^ 64

instance (sec : Section) : Decidable sec.Counted :=
  inferInstanceAs (Decidable (_ < _))

theorem baseWord_le (sound : sec.Sound sections externals) {image : ImageWords}
    (found : sec.block.image = some image) : sec.baseWord ≤ image.base := by
  obtain ⟨first, started, first_le⟩ := (sound.framed image found).first_le
  rw [baseWord, started]
  exact first_le

theorem highWord_le (counted : sec.Counted) : sec.highWord ≤ 2 ^ 58 := by
  unfold Counted at counted
  unfold highWord wordBits
  omega

theorem toObject_image (sound : sec.Sound sections externals) (counted : sec.Counted)
    {image : ImageWords} (found : sec.block.image = some image) (index : Nat) :
    ∃ written, (sec.toObject index).image = some written ∧
      written.loadWord.toNat = image.base - sec.baseWord ∧
      written.words.length = image.stop - image.base := by
  have base_lt := (sound.framed image found).base_lt
  have stop_le := (sound.framed image found).stop_le
  have high := highWord_le counted
  refine ⟨_, by rw [toObject, found]; rfl, ?_, ?_⟩
  · rw [UInt64.toNat_ofNat_of_lt']
    exact Nat.lt_of_le_of_lt (Nat.sub_le _ _) (by change image.base < 2 ^ 64; omega)
  · change (image.toList).length = image.stop - image.base
    exact (Nat.add_sub_cancel_left ..).symm

/-- A covered field is covered in the object block. -/
theorem toObject_covers (sound : sec.Sound sections externals) (counted : sec.Counted)
    {bitAddress : Word} {fieldLength : UInt32} (covers : sec.block.Covers bitAddress fieldLength)
    (index : Nat) :
    ∃ image, (sec.toObject index).image = some image ∧
      image.Covers (sec.blockBit bitAddress) fieldLength := by
  obtain ⟨image, bits, found, rfl, base_le, lt_stop, stop_le⟩ := covers
  obtain ⟨written, same, load, length⟩ := toObject_image sound counted found index
  have start := baseWord_le sound found
  have high := highWord_le counted
  have stop := (sound.framed image found).stop_le
  have base := (sound.framed image found).base_lt
  unfold wordBits at base_le lt_stop stop_le
  have address : (UInt64.ofNat bits).toNat = bits :=
    UInt64.toNat_ofNat_of_lt' (by change bits < 2 ^ 64; omega)
  have moved : (sec.blockBit (UInt64.ofNat bits)).toNat = bits - sec.baseWord * 64 := by
    rw [blockBit, address, UInt64.toNat_ofNat_of_lt']
    · rfl
    · change bits - sec.baseWord * 64 < 2 ^ 64
      omega
  refine ⟨written, same, ?_, ?_⟩
  · rw [moved, load]
    unfold wordBits
    omega
  · rw [moved, load, length]
    unfold wordBits
    omega

end Section

/-- The object module of a sound module fits together, if no counter ran over. -/
theorem Module.Sound.toObject_fits {module : Module} (sound : module.Sound)
    (counted : ∀ sec ∈ module.sections, sec.Counted) : module.toObject.Fits := by
  have blocks : ∀ block ∈ module.toObject.blocks, ∃ index, ∃ sec ∈ module.sections,
      block = sec.toObject index := by
    intro block member
    obtain ⟨index, inside, rfl⟩ := List.mem_mapIdx.mp member
    exact ⟨index, _, List.getElem_mem inside, rfl⟩
  constructor
  case image_le =>
    intro block member image found
    obtain ⟨index, sec, inside, rfl⟩ := blocks block member
    obtain ⟨words, lookup, -⟩ := Option.map_eq_some_iff.mp found
    have fits := sound.sections sec inside
    obtain ⟨written, same, load, length⟩ :=
      Section.toObject_image fits (counted sec inside) lookup index
    obtain rfl : written = image := Option.some.inj (same.symm.trans found)
    have start := Section.baseWord_le fits lookup
    have stop := (fits.framed words lookup).stop_le
    have base := (fits.framed words lookup).base_lt
    have high := Section.highWord_le (counted sec inside)
    have size : (sec.toObject index).size.toNat = sec.highWord - sec.baseWord :=
      UInt64.toNat_ofNat_of_lt' (by change sec.highWord - sec.baseWord < 2 ^ 64; omega)
    rw [size, load, length]
    omega
  case relocation_covered =>
    intro block member entry inTable
    obtain ⟨index, sec, inside, rfl⟩ := blocks block member
    obtain ⟨old, known, rfl⟩ := List.mem_map.mp inTable
    have fits := sound.sections sec inside
    exact Section.toObject_covers fits (counted sec inside) (fits.relocations old known).1 index
  case external_covered =>
    intro block member entry inTable
    obtain ⟨index, sec, inside, rfl⟩ := blocks block member
    obtain ⟨old, known, rfl⟩ := List.mem_map.mp inTable
    have fits := sound.sections sec inside
    exact Section.toObject_covers fits (counted sec inside) (fits.externals old known).1 index
  case target_known =>
    intro block member entry inTable
    obtain ⟨index, sec, inside, rfl⟩ := blocks block member
    obtain ⟨old, known, rfl⟩ := List.mem_map.mp inTable
    obtain ⟨-, id, id_lt, target⟩ := (sound.sections sec inside).relocations old known
    refine ⟨(module.sections.get ⟨id, id_lt⟩).toObject id, ?_, target.symm⟩
    exact List.mem_mapIdx.mpr ⟨id, id_lt, rfl⟩
  case external_lt =>
    intro block member entry inTable
    obtain ⟨index, sec, inside, rfl⟩ := blocks block member
    obtain ⟨old, known, rfl⟩ := List.mem_map.mp inTable
    obtain ⟨-, place, place_lt, target⟩ := (sound.sections sec inside).externals old known
    change old.externalIndex.toNat < (module.externals.map (·.name)).length
    rw [List.length_map, target, UInt64.toNat_ofNat']
    exact Nat.lt_of_le_of_lt (Nat.mod_le _ _) place_lt

end CrayAssembler
