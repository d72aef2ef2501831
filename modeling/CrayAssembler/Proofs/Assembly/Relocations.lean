import CrayAssembler.Proofs.Assembly.Agreement

namespace CrayAssembler

namespace Asm

/-- The actions that put a value in a field, with the use that it is put to. -/
inductive Puts : AsmM Unit → Use → Value → Prop
  | branch (gh : Nat) (value : Value) : Puts (emitBranch gh value) .branch value
  | memory (g h i : Nat) (value : Value) : Puts (emitMemoryReference g h i value) .memory value
  | loadA (i : Nat) (evaluation : Evaluation) : Puts (emitLoadA i evaluation) .load evaluation.value
  | loadS (i : Nat) (value : Value) : Puts (emitLoadSValue i value) .load value
  | data (width : Nat) (value : Value) : Puts (emitField width value) (.data width) value

/-- The unit that is given is not the one in which the number counts: a branch to an address that
counts neither parcels nor words, or a parcel address that is loaded or placed as data. -/
def Use.Misleads : Use → Value → Prop
  | branch, value => value.addressKind = .value ∨ value.addressKind = .byte
  | memory, _ => False
  | load, value | data _, value => value.addressKind = .parcel

theorem Use.parcel_iff (use : Use) (value : Value) :
    (use.parcel = true ↔ (use.stored value).addressKind = .parcel) ↔ ¬use.Misleads value := by
  cases use with
  | branch =>
    change (true = true ↔ (branchTarget value).addressKind = .parcel) ↔ _
    unfold branchTarget Misleads
    split
    case isTrue word => simp [word]
    case isFalse word => cases kind : value.addressKind <;> simp_all
  | memory =>
    change (false = true ↔ (memoryAddress value).addressKind = .parcel) ↔ _
    unfold memoryAddress Misleads
    split
    case isTrue parcel => simp
    case isFalse parcel => simp [parcel]
  | load =>
    change (false = true ↔ value.addressKind = .parcel) ↔ ¬value.addressKind = .parcel
    simp
  | data width =>
    change (false = true ↔ value.addressKind = .parcel) ↔ ¬value.addressKind = .parcel
    simp

theorem Use.parcel_of_entry? {use : Use} {value : Value} {context : Context}
    {entry : Object.Relocation} (found : use.entry? value context = some entry) :
    entry.parcel = use.parcel := by
  unfold entry? at found
  dsimp only at found
  split at found
  · obtain ⟨id, -, rfl⟩ := Option.map_eq_some_iff.mp found
    rfl
  · nomatch found

section Fields

/-- An action adds to the relocations of the current section what a use of a value gives. -/
def Gains (action : AsmM Unit) (use : Use) (value : Value) : Prop :=
  ∀ context : Context, context.Sound →
    (action.run context).2.relocationsAt context.moduleIndex context.sectionId.current =
      context.relocationsAt context.moduleIndex context.sectionId.current ++
        (use.entry? value context).toList

variable {use : Use} {value : Value}

theorem relocationsAt_record (use : Use) (value : Value) : Gains (use.record value) use value := by
  intro context sound
  generalize recorded : ((use.record value).run context).2 = after
  rcases use.record_cases value context recorded with
    ⟨entry, found, rfl⟩ | ⟨none, rfl | ⟨d, rfl⟩ | ⟨entry, rfl⟩⟩
  · rw [found, Context.relocationsAt, Context.modifySection, Context.moduleAt_modifyModule,
      if_pos ⟨rfl, sound.current_lt⟩, Module.getSection_modifySection,
      if_pos ⟨rfl, sound.sections_lt _ List.mem_cons_self⟩]
    rfl
  · rw [none]
    exact (List.append_nil _).symm
  · rw [none]
    exact (List.append_nil _).symm
  · rw [none, Option.toList_none, List.append_nil]
    exact (Context.later_modifySection rfl context.moduleIndex).relocations _

theorem relocationsAt_showGenerated (text : String) (context : Context) (index : Nat)
    (id : SectionId) :
    ((showGenerated text).run context).2.relocationsAt index id = context.relocationsAt index id := by
  unfold showGenerated
  rw [StateT.run_bind, StateT.run_get, pure_bind]
  split <;> rfl

/-- The entry is made before the bits are placed and shown. -/
theorem gains_reference (use : Use) (value : Value) (width : Nat) (bits : Word) (text : String) :
    Gains (do
      use.record value
      emitBits width bits
      showGenerated text) use value := by
  intro context sound
  rw [← relocationsAt_record use value context sound]
  exact (relocationsAt_showGenerated text _ _ _).trans
    ((later_emitBits _ width bits context.moduleIndex).relocations context.sectionId.current)

theorem Gains.note {action : AsmM Unit} (d : Diagnostic) (gains : Gains action use value) :
    Gains (do
      Asm.note d
      action) use value :=
  fun context sound => gains (context.register d) ⟨sound.modules, sound.current_lt,
    sound.sections_lt, sound.objects, sound.unfinished⟩

theorem Gains.complain {condition : Prop} [Decidable condition] {action : AsmM Unit}
    (d : Diagnostic) (gains : Gains action use value) :
    Gains (if condition then (do
        Asm.note d
        action)
      else action) use value := by
  split
  · exact gains.note d
  · exact gains

theorem Gains.check {action : AsmM Unit} (checked : Value) (gains : Gains action use value) :
    Gains (do
      checkField checked
      action) use value := by
  unfold checkField
  split
  · exact gains.note (.error .fieldWidth)
  · exact gains

/-- A plain number gives no entry. -/
theorem entry?_of_isConstant (constant : value.isConstant) (context : Context) :
    Use.load.entry? value context = none := by
  have home := (Value.isConstant_iff.mp constant).1.1
  unfold Use.entry?
  dsimp only [Use.stored]
  rw [home]
  split <;> rfl

/-- Where a plain number is loaded, another one may be placed for it. -/
theorem Gains.of_isConstant {action : AsmM Unit} {other : Value} (gains : Gains action .load other)
    (constant : value.isConstant) (same : other.isConstant) : Gains action .load value := by
  intro context sound
  rw [gains context sound, entry?_of_isConstant constant, entry?_of_isConstant same]

theorem gains_emitParcel (parcel : Parcel) (constant : value.isConstant) :
    Gains (emitParcel parcel) .load value := by
  intro context _
  rw [entry?_of_isConstant constant, Option.toList_none, List.append_nil]
  exact (relocationsAt_showGenerated _ _ _ _).trans
    ((later_emitBits context parcelBits parcel.toUInt64 context.moduleIndex).relocations
      context.sectionId.current)

theorem gains_emitBranch (gh : Nat) (value : Value) : Gains (emitBranch gh value) .branch value := by
  have emitted (address : Nat) : Gains (emitAddressInstruction (Instruction.ghIjkm gh address)
      (branchTarget value) true) .branch value := gains_reference .branch value _ _ _
  unfold emitBranch
  dsimp only
  split
  · exact (emitted _).note (.error .valueType)
  · exact (emitted _).complain (.error .fieldWidth)

theorem gains_emitMemoryReference (g h i : Nat) (value : Value) :
    Gains (emitMemoryReference g h i value) .memory value := by
  have emitted : Gains (emitAddressInstruction
      (Instruction.gHIJkm g h i (fieldNumber (memoryAddress value))) (memoryAddress value) false)
      .memory value := gains_reference .memory value _ _ _
  unfold emitMemoryReference
  refine Gains.complain (.warning .machineInstruction) ?_
  dsimp only
  split
  · exact emitted.note (.error .valueType)
  · exact emitted.check _

theorem gains_load (instruction : ParcelPair) (value : Value) :
    Gains (emitAddressInstruction instruction value false) .load value :=
  gains_reference .load value _ _ _

theorem gains_emitLoadA (i : Nat) (evaluation : Evaluation) :
    Gains (emitLoadA i evaluation) .load evaluation.value := by
  unfold emitLoadA
  refine Gains.complain (.error .valueType) ?_
  have constant {rest : Bool} (known : (evaluation.value.isConstant && !evaluation.forward &&
      rest) = true) : evaluation.value.isConstant := by
    simp only [Bool.and_eq_true] at known
    exact known.1.1
  dsimp only
  split
  case isTrue small => exact gains_emitParcel _ (constant small)
  split
  case isTrue negative =>
    rw [Bool.and_assoc] at negative
    exact (gains_load _ (.absolute 0)).of_isConstant (constant negative) rfl
  · exact (gains_load _ _).check _

theorem gains_emitLoadSValue (i : Nat) (value : Value) :
    Gains (emitLoadSValue i value) .load value := by
  have direct := gains_load (Instruction.ghIJkm 0o040 i (fieldNumber value)) value
  unfold emitLoadSValue
  dsimp only
  split
  · exact direct.check value
  case isFalse constant =>
  have constant : value.isConstant := by
    cases known : value.isConstant with
    | true => rfl
    | false =>
      rw [known] at constant
      exact absurd rfl constant
  split
  · exact direct
  split
  · exact (gains_load _ (.absolute 0)).of_isConstant constant rfl
  · exact direct.note (.error .fieldWidth)

theorem gains_emitField (width : Nat) (value : Value) :
    Gains (emitField width value) (.data width) value :=
  gains_reference (.data width) value _ _ _

/-- Every action that puts a value in a field makes the entry that its use of the value gives. -/
theorem Puts.gains {action : AsmM Unit} (puts : Puts action use value) :
    Gains action use value := by
  cases puts with
  | branch gh value => exact gains_emitBranch gh value
  | memory g h i value => exact gains_emitMemoryReference g h i value
  | loadA i evaluation => exact gains_emitLoadA i evaluation
  | loadS i value => exact gains_emitLoadSValue i value
  | data width value => exact gains_emitField width value

end Fields

section Tracing

variable {start context after : Context}

/-- The entry was made for a value that was put in a field of the section with this place. -/
def Origin (start : Context) (id : SectionId) (entry : Object.Relocation) : Prop :=
  ∃ references context use value, Session start references context ∧
    context.sectionId.current = id ∧ Use.entry? use value context = some entry

/-- All entries have an origin, those of object modules up to the base of their blocks. -/
structure Traced (start context : Context) : Prop where
  sections : ∀ index id, ∀ entry ∈ context.relocationsAt index id, Origin start id entry
  objects : ∀ object ∈ context.objects, ∀ block ∈ object.blocks, ∀ entry ∈ block.relocations,
    ∃ id base recorded, block.index = UInt64.ofNat id ∧ block.origin = UInt64.ofNat base ∧
      Origin start id recorded ∧ entry = { recorded with
        bitAddress := UInt64.ofNat (recorded.bitAddress.toNat - base * wordBits) }

theorem Traced.of_same (traced : Traced start context)
    (relocations : ∀ index id, after.relocationsAt index id = context.relocationsAt index id)
    (objects : after.objects = context.objects) : Traced start after where
  sections index id := by
    rw [relocations]
    exact traced.sections index id
  objects := by
    rw [objects]
    exact traced.objects

theorem Traced.produce (traced : Traced start context) :
    Traced start { context with
      objects := context.objects.push context.currentModule.toObject } := by
  refine ⟨traced.sections, fun object member block inObject entry inBlock => ?_⟩
  rcases Array.mem_push.mp member with old | rfl
  · exact traced.objects object old block inObject entry inBlock
  · obtain ⟨id, known, rfl⟩ := List.mem_mapIdx.mp inObject
    obtain ⟨recorded, inSection, rfl⟩ := List.mem_map.mp inBlock
    refine ⟨id, _, recorded, rfl, rfl, traced.sections context.moduleIndex id recorded ?_, rfl⟩
    have found := Module.section?_of_lt known
    change recorded ∈ (context.currentModule.getSection id).block.relocations
    rw [← Option.some.inj ((List.getElem?_eq_getElem known).symm.trans found)]
    exact inSection

/-- Literals are placed without relocations. -/
theorem relocationsAt_sealed (context : Context) (index : Nat) (id : SectionId) :
    context.sealed.relocationsAt index id = context.relocationsAt index id := by
  have placed : context.currentModule.Later context.currentModule.placeLiterals.1 := by
    refine Module.later_modifySection ?_
    rw [Section.advance_block, ObjectBlock.writePlaced_placedWords]
    exact relocations_writeWords _ _ _
  let Same (before after : Module) : Prop :=
    (after.getSection id).block.relocations = (before.getSection id).block.relocations
  exact Context.related_modifyModule (R := Same) (fun _ => rfl) (placed.relocations id) index

theorem closable_traced : Closable (Traced start) where
  aside _ _ traced := traced.of_same (fun _ _ => rfl) rfl
  placeLiterals {context} traced := by
    exact traced.of_same (relocationsAt_sealed context) rfl
  produce _ traced := traced.produce

variable {references more : List Reference}

theorem Traced.run (traced : Traced start context) (session : Session start references context)
    (run : Run context more after) : Traced start after := by
  induction run with
  | refl => exact traced
  | @deed _ middle _ run deed ih =>
    refine ⟨fun index id entry member => ?_, by rw [deed.level.objects]; exact ih.objects⟩
    rcases deed.recorded index id entry member with old | ⟨-, current, use, value, found⟩
    · exact ih.sections index id entry old
    · exact ⟨_, middle, use, value, session.run run, current, found⟩
  | refer key words _ _ ih =>
    refine ih.of_same (fun index id => ?_) rfl
    unfold Context.relocationsAt Context.refer
    rw [Context.moduleAt_modifyModule]
    split <;> rfl

theorem Traced.close (traced : Traced start context) (statement : StatementState)
    (listing : Array Listing.Item) :
    Traced start ({ context.closed with statement, listing } : Context).left := by
  have placed : Traced start context.sealed := closable_traced.placeLiterals traced
  have closed : Traced start context.closed := by
    unfold Context.closed
    split
    · exact placed.produce
    · exact placed
  exact closed.of_same (fun _ _ => rfl) rfl

theorem Traced.session (traced : Traced start start)
    (session : Session start references context) : Traced start context := by
  induction session with
  | refl => exact traced
  | run session run ih => exact ih.run session run
  | enter index _ _ _ _ ih => exact ih.of_same (fun _ _ => rfl) rfl
  | leave _ ih => exact ih.of_same (fun _ _ => rfl) rfl
  | close statement listing _ _ ih => exact ih.close statement listing

theorem traced_finishPass (traced : Traced start start) (opened : start.Open) (line : LineNumber) :
    Takes (Follows start) (finishPass line) (Traced start) := by
  refine takes_finishPass line (takes_closeAnonymousModule line ?_ closable_traced ?_)
  · intro context follows
    obtain ⟨references, session⟩ := follows.sessions.session opened
    exact (traced.session session).of_same (fun _ _ => rfl) rfl
  · exact fun _ _ traced => traced.of_same (fun _ _ => rfl) rfl

end Tracing

end Asm

namespace Assembly

variable (lines : List SourceLine) (name : String) (settings : Settings) (clock : Clock)

theorem traced_passTwoStart :
    Asm.Traced (passTwoStart lines name settings clock) (passTwoStart lines name settings clock) := by
  obtain ⟨start, first, ending⟩ :=
    Asm.takes_runPass lines .one _ (Asm.sound_initial settings clock name)
  have none : (passTwoStart lines name settings clock).objects = #[] :=
    ending.sound.unfinished (ending.pass.trans first)
  refine ⟨fun index id entry member => ?_, fun object member => ?_⟩
  · obtain ⟨sec, restarted⟩ := section_passTwoStart lines name settings clock index id
    unfold Context.relocationsAt at member
    rw [restarted] at member
    nomatch member
  · rw [none] at member
    nomatch member

theorem traced_finalContext :
    Asm.Traced (passTwoStart lines name settings clock)
      (finalContext lines name settings clock) :=
  finalContext_of_finishPass lines name settings clock fun line =>
    Asm.traced_finishPass (traced_passTwoStart lines name settings clock)
      (open_passTwoStart lines name settings clock) line

/-- Relocations and the units of their fields. In pass 2 a value that is put in a field gets an entry
exactly if it is relocatable, and every entry of an object module was made in this way. The entry
says that the field counts parcels exactly if the number does, but for uses that mislead: parcel
addresses that are loaded or placed as data, and branches to what counts neither parcels nor
words. -/
theorem relocations_flagged :
    (∀ action use value context, Asm.Puts action use value →
      Asm.Steps (passTwoStart lines name settings clock) context →
      (action.run context).2.relocationsAt context.moduleIndex context.sectionId.current =
        context.relocationsAt context.moduleIndex context.sectionId.current ++
          (use.entry? value context).toList) ∧
    ∀ object ∈ (ofLines lines name settings clock).objects, ∀ block ∈ object.blocks,
      ∀ entry ∈ block.relocations, ∃ context use value recorded base,
        Asm.Steps (passTwoStart lines name settings clock) context ∧
        Asm.Use.entry? use value context = some recorded ∧
        block.index = UInt64.ofNat context.sectionId.current ∧ block.origin = UInt64.ofNat base ∧
        entry = { recorded with
          bitAddress := UInt64.ofNat (recorded.bitAddress.toNat - base * wordBits) } ∧
        ((entry.parcel = true ↔ (use.stored value).addressKind = .parcel) ↔
          ¬use.Misleads value) := by
  constructor
  · intro action use value context puts steps
    exact puts.gains context (Asm.Steps.leads steps (sound_passTwoStart lines name settings clock)).1
  · intro object member block inObject entry inBlock
    obtain ⟨id, base, recorded, index, origin, ⟨references, context, use, value, session, rfl, found⟩,
        rfl⟩ :=
      (traced_finalContext lines name settings clock).objects object
        (Array.mem_toList_iff.mp member) block inObject entry inBlock
    refine ⟨context, use, value, recorded, base, session.steps, found, index, origin, rfl, ?_⟩
    rw [← use.parcel_iff, ← Asm.Use.parcel_of_entry? found]

/-- A field would be recorded where the sample begins, and one was that holds a word address. -/
theorem relocations_flagged_sample :
    let start := passTwoStart sampleLines "MAIN" {} ⟨"", "", ""⟩
    ((Asm.emitBranch 0o006 (.address .parcel nominalSection 8 true)).run start).2.relocationsAt
        start.moduleIndex start.sectionId.current =
      start.relocationsAt start.moduleIndex start.sectionId.current ++
        [⟨.standard, 0, 0, 22, true⟩] ∧
    ∃ object ∈ (ofLines sampleLines "MAIN" {} ⟨"", "", ""⟩).objects, ∃ block ∈ object.blocks,
      ∃ entry ∈ block.relocations, entry.parcel = false ∧
        ∃ context use value, Asm.Steps start context ∧
          ((Asm.Use.stored use value).addressKind ≠ .parcel ↔ ¬use.Misleads value) := by
  intro start
  obtain ⟨gains, traces⟩ := relocations_flagged sampleLines "MAIN" {} ⟨"", "", ""⟩
  have gained := gains _ _ _ start (.branch 0o006 (.address .parcel nominalSection 8 true)) .refl
  have entered : Asm.Use.branch.entry? (.address .parcel nominalSection 8 true) start =
      some ⟨.standard, 0, 0, 22, true⟩ := by
    decide +kernel
  rw [entered] at gained
  have some : ∃ object ∈ (ofLines sampleLines "MAIN" {} ⟨"", "", ""⟩).objects,
      ∃ block ∈ object.blocks, ∃ entry ∈ block.relocations, entry.parcel = false := by
    decide +kernel
  obtain ⟨object, member, block, inObject, entry, inBlock, unflagged⟩ := some
  obtain ⟨context, use, value, recorded, base, steps, -, -, -, -, flagged⟩ :=
    traces object member block inObject entry inBlock
  refine ⟨gained, object, member, block, inObject, entry, inBlock, unflagged, context, use, value,
    steps, ?_⟩
  rw [← flagged, unflagged]
  simp

/-- A parcel address is loaded, branched to and placed as data. The number that is stored is the
same in all three and counts parcels; only the branch says so. -/
theorem parcels_unflagged :
    let lines : List SourceLine := [⟨1, "         IDENT     M", false⟩,
      ⟨2, "L        A1        L", false⟩, ⟨3, "         J         L", false⟩,
      ⟨4, "         CON       L", false⟩, ⟨5, "         END", false⟩]
    let assembly := ofLines lines "MAIN" {} ⟨"", "", ""⟩
    assembly.tally.errors = 0 ∧
      (((finalContext lines "MAIN" {} ⟨"", "", ""⟩).valueAt 1 ⟨"", "L"⟩).same
        (.address .parcel nominalSection 0 true)) ∧
      assembly.objects.map (fun object => object.blocks.map (·.relocations)) =
        [[[⟨.standard, 0, 0, 22, false⟩, ⟨.standard, 0, 32, 22, true⟩,
          ⟨.extended, 0, 64, 64, false⟩], []]] := by
  decide +kernel

end Assembly

end CrayAssembler
