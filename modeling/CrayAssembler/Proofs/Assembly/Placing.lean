import CrayAssembler.Proofs.Assembly.Operands

namespace CrayAssembler

namespace Asm

variable {start : Context}

/-- Reading operands stays within the current section. -/
theorem survives_within : Survives (Within start) (Fitting start) where
  values := closed_fitting
  aside _ within := within.deed (.aside ..) ⟨rfl, rfl, rfl, rfl, rfl⟩
  symbol name := by
    refine (Gives.ofQuiet (·.sound) (·.quiet ·) fun _ sound => quiet_symbol sound name).mono ?_
    rintro found ⟨context, within, fitting⟩
    exact (within.fitting _).mp fitting
  here kind n within := by
    rw [← within.fitting]
    exact (Quiet.refl _).here within.sound kind n
  placeLiteral undefined counted := by
    refine (Gives.ofQuiet (·.sound) (·.quiet ·) fun _ sound =>
      quiet_placeLiteral sound undefined counted).mono ?_
    rintro result ⟨context, within, known⟩ value same
    exact (within.fitting _).mp (known value same)
  defineSymbol location value redefinable fitting := by
    intro context within
    have quiet := quiet_defineSymbol within.sound location redefinable
      ((within.fitting value).mpr fitting) context (.refl context)
    exact ⟨within.quiet quiet.1, trivial⟩
  declareEntry name := .within fun _ sound => quiet_declareEntry sound name
  describe described := .within fun _ sound => quiet_describe sound described

theorem reads_within : Reads (.keeping (Within start)) (Fitting start) :=
  survives_within.reads

section Bits

theorem steady_emitBits (context : Context) (width : Nat) (bits : Word) :
    Steady context ((emitBits width bits).run context).2 := by
  have advanced : ∀ block, Steady context
      (context.modifySection fun sec => { sec with block }.advance width) := fun block =>
    steady_modifySection context fun sec => Section.advance_type _ width
  unfold emitBits
  rw [StateT.run_bind, StateT.run_get, pure_bind]
  dsimp only
  split
  · exact advanced _
  · exact (steady_modifySection context fun sec => Section.advance_type sec width).trans
      ⟨rfl, rfl, rfl, rfl, rfl⟩

theorem steady_recordReference (context : Context) (kind : Object.EntryKind) (fieldLength : Nat)
    (value : Value) (parcel : Bool) :
    Steady context ((recordReference kind fieldLength value parcel).run context).2 := by
  generalize recorded : ((recordReference kind fieldLength value parcel).run context).2 = after
  obtain rfl | ⟨d, rfl⟩ | ⟨-, ⟨id, -, rfl⟩ | ⟨index, -, rfl⟩⟩ :=
    recordReference_cases context kind fieldLength value parcel recorded
  · exact .refl _
  · exact ⟨rfl, rfl, rfl, rfl, rfl⟩
  · exact steady_modifySection context fun _ => rfl
  · exact steady_modifySection context fun _ => rfl

/-- A value in a field, and what the loader has to do to it. -/
theorem within_reference (use : Use) {value : Value} {width : Nat} (bits : Word)
    (fitting : Fitting start (use.stored value)) (holds : start.currentSection.type.allowsImage)
    (inside : use.fieldLength ≤ width) (positive : 0 < width) (narrow : width ≤ wordBits) :
    Keeps (Within start) (do
      use.record value
      emitBits width bits : AsmM Unit) := by
  intro context within
  have image : context.currentSection.type.allowsImage := by
    rw [within.type]
    exact holds
  exact ⟨within.deed (.emitReference use bits (.emitReference _ _ _ _ width bits
    ((within.fitting _).mpr fitting) image inside positive narrow))
    ((steady_recordReference ..).trans (steady_emitBits ..)), trivial⟩

theorem within_emitBits {width : Nat} (bits : Word) (narrow : width ≤ wordBits) :
    Keeps (Within start) (emitBits width bits) :=
  fun context within =>
    ⟨within.deed (.emit context bits narrow) (steady_emitBits context width bits), trivial⟩

theorem within_forceWordBoundary : Keeps (Within start) forceWordBoundary := by
  refine Gives.bindGet fun context _ => ?_
  dsimp only
  split
  · exact within_emitBits _ (Nat.sub_le _ _)
  · exact .pure trivial

end Bits

section Counters

/-- The origin counter stands at a word boundary. -/
def Aligned (context : Context) : Prop :=
  context.currentSection.originBits % wordBits = 0

/-- Filling up to a word boundary is decided by the location counter, and fills the word of the
origin counter as well. -/
theorem aligned_forceWordBoundary {context : Context} (sound : context.Sound) :
    Aligned (forceWordBoundary.run context).2 := by
  have ordered := sound.currentSection_sound.ordered
  have congruent := ordered.congruent
  unfold forceWordBoundary
  rw [StateT.run_bind, StateT.run_get, pure_bind]
  dsimp only
  split
  case isTrue inside =>
    obtain ⟨block, result, -⟩ := emitBits_eq sound.currentSection_sound.framed
      (wordBits - context.currentSection.wordBit) 0
    unfold Aligned
    rw [result, Context.currentSection_modifySection sound, Section.advance_originBits]
    change (context.currentSection.originBits +
      (wordBits - context.currentSection.locationBits % wordBits)) % wordBits = 0
    unfold wordBits at congruent ⊢
    omega
  case isFalse outside =>
    have boundary : context.currentSection.locationBits % wordBits = 0 := Decidable.not_not.mp outside
    exact congruent.symm.trans boundary

/-- A statement that moves counters from a word boundary on. The boundary is still there when they
are moved, since reading the operand is quiet. -/
theorem within_move {operand : String} {move : Nat → AsmM Unit}
    (moves : ∀ word context, Within start context → Aligned context →
      Within start ((move word).run context).2) :
    Keeps (Within start) (do
      forceWordBoundary
      match ← counterOperand operand with
      | none => return ()
      | some word => move word) := by
  intro context within
  have filled := (within_forceWordBoundary context within).1
  have aligned := aligned_forceWordBoundary within.sound
  have reading : Keeps (fun context => Within start context ∧ Aligned context)
      (counterOperand operand) := by
    refine .ofQuiet (·.1.sound) ?_ fun _ sound => (reads_quiet sound).counterOperand operand
    intro before after holds quiet
    refine ⟨holds.1.quiet quiet, ?_⟩
    unfold Aligned
    rw [quiet.currentSection]
    exact holds.2
  have read := (reading _ ⟨filled, aligned⟩).1
  refine ⟨?_, trivial⟩
  change Within start (StateT.run
    (match ((counterOperand operand).run (forceWordBoundary.run context).2).1 with
    | none => return ()
    | some word => move word)
    ((counterOperand operand).run (forceWordBoundary.run context).2).2).2
  split
  · exact read.1
  · exact moves _ _ read.1 read.2

theorem within_setLocation (fields : Fields) : Keeps (Within start) (setLocation fields) := by
  refine within_move fun word context within aligned => ?_
  rw [StateT.run_bind, StateT.run_get, pure_bind]
  dsimp only
  split
  · exact (reads_within.error _ _ within).1
  case isFalse ahead =>
    have moved := within.deed (.of_section (.setLocation word aligned (Nat.not_lt.mp ahead)) rfl)
      (steady_modifySection context fun _ => rfl)
    exact (reads_within.defineWordLabel fields.location _ moved).1

theorem within_setOrigin (fields : Fields) : Keeps (Within start) (setOrigin fields) := by
  refine within_move fun word context within aligned => ?_
  rw [StateT.run_bind, StateT.run_get, pure_bind]
  dsimp only
  split
  · exact (reads_within.error _ _ within).1
  case isFalse ahead =>
    have moved := within.deed (.of_section (.setOrigin word aligned (Nat.not_lt.mp ahead)) rfl)
      (steady_modifySection context fun _ => rfl)
    exact (reads_within.defineWordLabel fields.location _ moved).1

theorem within_reserveBits (bits : Nat) : Keeps (Within start) (reserveBits bits) :=
  .modify fun context within => within.deed
    (.of_section (.reserve bits) (congrArg (·.relocations) (Section.advance_block _ bits)))
    (steady_modifySection context fun sec => Section.advance_type sec bits)

/-- Whatever is placed stays within the current section. -/
theorem places_within :
    Places (.keeping (Within start)) (Fitting start) start.currentSection.type.allowsImage where
  toReads := reads_within
  atImage _ each := Gives.bindGet fun context within =>
    each context (fun holds => by rwa [within.type] at holds)
  emitBits := within_emitBits
  reference := within_reference
  reserveBits := within_reserveBits
  setLocation := within_setLocation
  setOrigin := within_setOrigin

end Counters

end Asm

end CrayAssembler
