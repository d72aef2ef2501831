import CrayAssembler.Proofs.Assembly.Chain
import CrayAssembler.Proofs.Assembly.Passes
import CrayAssembler.Proofs.Assembly.Recurring
import CrayAssembler.Proofs.Machine.Code

namespace CrayAssembler

namespace DiagnosticSet

theorem hasErrors_insert {set : DiagnosticSet} (d : Diagnostic) (errors : set.hasErrors) :
    (set.insert d).hasErrors := by
  obtain ⟨fault, member, isError⟩ := List.any_eq_true.mp errors
  refine List.any_eq_true.mpr ⟨fault, List.mem_filter.mpr ⟨fault.mem_all, ?_⟩, isError⟩
  rw [Bool.or_eq_true]
  exact .inr (List.contains_iff_mem.mpr member)

end DiagnosticSet

namespace Asm

open Instruction (Code)

/-- An error was registered against the statement. -/
def Faulty (context : Context) : Prop :=
  context.statement.diagnostics.hasErrors

/-- An action registers no error, whatever was registered against the statement before. -/
def Faultless (action : AsmM Unit) (context : Context) : Prop :=
  ¬ Faulty (action.run context.silenced).2

/-- Place the code of one instruction, in which there is nothing for the loader to change. -/
def placeCode : Code → AsmM Unit
  | .short parcel => emitParcel parcel
  | .long pair => emitAddressInstruction pair (.absolute 0) false

/-- An invariant that the placing of code does not touch: sections are written, code is shown, and
faults are noted. -/
structure Spared (I : Context → Prop) : Prop where
  modifySection : ∀ change, Keeps I (modifySection change)
  note : ∀ d, Keeps I (note d)
  showGenerated : ∀ text, Keeps I (showGenerated text)

namespace Spared

variable {I : Context → Prop} (spared : Spared I)

include spared

theorem emitShown (width : Nat) (bits : Word) (text : String) :
    Keeps I (do emitBits width bits; Asm.showGenerated text) :=
  Keeps.bind (sees_keeping.emitBits spared.modifySection spared.note _ _) fun _ =>
    spared.showGenerated _

theorem emitParcel (parcel : Parcel) : Keeps I (emitParcel parcel) :=
  spared.emitShown _ _ _

theorem emitAddressInstruction (pair : ParcelPair) (value : Value) (parcel : Bool) :
    Keeps I (emitAddressInstruction pair value parcel) :=
  Keeps.bind (sees_keeping.recordReference spared.modifySection spared.note _ _ _ _) fun _ =>
    spared.emitShown _ _ _

theorem checkField (value : Value) : Keeps I (checkField value) := by
  unfold Asm.checkField
  split
  · exact spared.note _
  · exact .pure _

theorem emitLoadA (i : Nat) (evaluation : Evaluation) : Keeps I (emitLoadA i evaluation) := by
  refine Gives.complain (spared.note _) ?_
  split
  · exact spared.emitParcel _
  split
  · exact spared.emitAddressInstruction _ _ _
  · exact (spared.checkField _).bind fun _ => spared.emitAddressInstruction _ _ _

end Spared

section Faults

theorem spared_faulty : Spared Faulty where
  modifySection _ := .modify fun _ faulty => faulty
  note d := .modify fun _ faulty => DiagnosticSet.hasErrors_insert d faulty
  showGenerated text := by
    refine Gives.bindGet fun context _ => ?_
    split
    · exact Keeps.modify fun _ faulty => faulty
    · exact .pure trivial

/-- What follows an error leaves the statement faulty. -/
theorem faulty_after {rest : AsmM Unit} (keeps : Keeps Faulty rest) (kind : ErrorKind)
    (context : Context) : Faulty ((error kind >>= fun _ => rest).run context).2 :=
  (keeps _ (hasErrors_error kind context)).1

end Faults

section Placed

variable {value : Value}

/-- The loader has nothing to do for a constant. -/
theorem recordReference_constant (constant : value.isConstant) (kind : Object.EntryKind)
    (fieldLength : Nat) (parcel : Bool) :
    recordReference kind fieldLength value parcel =
      if value.isRelocatable && decide (value.coefficient ≠ 1) then error .relocatableField
      else pure () := by
  obtain ⟨⟨home, external, defined⟩, -⟩ := Value.isConstant_iff.mp constant
  funext context
  simp only [recordReference, home, external, defined, Bool.false_eq_true, if_false]
  cases value.isRelocatable
  · rfl
  · simp only [if_true, Bool.true_and, decide_eq_true_iff]
    rfl

/-- An instruction with a constant in it is placed, unless there is an error. -/
theorem emitAddressInstruction_constant (constant : value.isConstant) (pair : ParcelPair)
    {context : Context}
    (quiet : ¬ Faulty ((emitAddressInstruction pair value false).run context).2) :
    emitAddressInstruction pair value false = placeCode (.long pair) := by
  have zero : (Value.absolute 0).isConstant := rfl
  unfold emitAddressInstruction at quiet
  rw [recordReference_constant constant] at quiet
  unfold placeCode emitAddressInstruction
  rw [recordReference_constant constant, recordReference_constant zero]
  split at quiet
  · exact absurd (faulty_after (spared_faulty.emitShown _ _ _) _ context) quiet
  case isFalse static =>
    rw [if_neg static]
    rfl

end Placed

section Address

variable {evaluation : Evaluation} {context : Context}

/-- What a load of an A register leaves there for a constant. -/
def loadedNumber (evaluation : Evaluation) : Int :=
  let number := evaluation.value.numeric.signed
  if evaluation.forward && number < 0 then number + 2 ^ 22 else number

theorem loadedNumber_known (known : !evaluation.forward) :
    loadedNumber evaluation = evaluation.value.numeric.signed := by
  have nearby : evaluation.forward = false := by simpa using known
  unfold loadedNumber
  rw [nearby]
  rfl

/-- A constant in the form for any 22 bits. A negative one that fits has its first bits cut off. -/
theorem loadedA?_wide (i : Nat) (fits : evaluation.value.numeric.fitsField Instruction.jkmBits)
    (ahead : evaluation.value.numeric.signed < 0 → evaluation.forward) :
    (Code.long (Instruction.ghIJkm 0o020 i evaluation.value.numeric.toNat)).loadedA? =
      some (i % 8, loadedNumber evaluation) := by
  have bound := evaluation.value.numeric.toNat_lt
  have signed := Word.signed_eq evaluation.value.numeric
  have range := (Word.fitsField_iff _ (by decide) (by decide)).mp fits
  rw [Code.loadedA?_plain, Option.some_inj, Prod.mk.injEq]
  refine ⟨rfl, ?_⟩
  simp only [Instruction.jkmBits, Nat.reduceSub] at range
  unfold loadedNumber
  by_cases negative : evaluation.value.numeric.signed < 0
  · rw [if_pos (by simp [ahead negative, negative])]
    split at signed <;> omega
  · rw [if_neg (by simp [negative])]
    split at signed <;> omega

/-- A negative constant in the form for complements. -/
theorem loadedA?_negative (i : Nat) {word : Word} (negative : word.signed < 0)
    (fits : (~~~word).fitsUnsigned Instruction.jkmBits) :
    (Code.long (Instruction.ghIJkm 0o021 i (~~~word).toNat)).loadedA? = some (i % 8, word.signed) := by
  have bound := word.toNat_lt
  have signed := Word.signed_eq word
  have small := (Word.fitsUnsigned_iff _ (by decide)).mp fits
  rw [Word.toNat_not] at small
  rw [Code.loadedA?_complement, Option.some_inj, Prod.mk.injEq, Word.toNat_not]
  refine ⟨rfl, ?_⟩
  simp only [Instruction.jkmBits] at small
  split at signed <;> omega

/-- A negative number that fits in the field has a complement that does. -/
theorem fitsUnsigned_complement {word : Word} (negative : word.signed < 0)
    (fits : word.fitsField Instruction.jkmBits) :
    (~~~word).fitsUnsigned Instruction.jkmBits := by
  have bound := word.toNat_lt
  have signed := Word.signed_eq word
  have range := (Word.fitsField_iff _ (by decide) (by decide)).mp fits
  rw [Word.fitsUnsigned_iff _ (by decide), Word.toNat_not]
  simp only [Instruction.jkmBits, Nat.reduceSub] at range ⊢
  split at signed <;> omega

/-- What is neither small nor known to be negative takes the form for any 22 bits, if it fits. -/
theorem emitWide_loads (i : Nat) (constant : evaluation.value.isConstant)
    (other : ¬ (!evaluation.forward && decide (evaluation.value.numeric.signed < 0) &&
      (~~~evaluation.value.numeric).fitsUnsigned Instruction.jkmBits) = true)
    (quiet : ¬ Faulty ((checkField evaluation.value >>= fun _ => emitAddressInstruction
      (Instruction.ghIJkm 0o020 i (fieldNumber evaluation.value)) evaluation.value false).run context).2) :
    ∃ code, (checkField evaluation.value >>= fun _ => emitAddressInstruction
        (Instruction.ghIJkm 0o020 i (fieldNumber evaluation.value)) evaluation.value false) =
          placeCode code ∧
      code.loadedA? = some (i % 8, loadedNumber evaluation) := by
  have defined := (Value.isConstant_iff.mp constant).1.2.2
  have number : fieldNumber evaluation.value = evaluation.value.numeric.toNat :=
    if_neg (by simp [defined])
  rw [number] at quiet ⊢
  unfold checkField at quiet ⊢
  split at quiet
  · exact absurd (faulty_after (spared_faulty.emitAddressInstruction _ _ _) _ context) quiet
  case isFalse checked =>
    have fits : evaluation.value.numeric.fitsField Instruction.jkmBits := by
      simpa [defined] using checked
    rw [if_neg checked]
    refine ⟨_, emitAddressInstruction_constant constant _ quiet, ?_⟩
    refine loadedA?_wide i fits fun negative => ?_
    have complement := fitsUnsigned_complement negative fits
    simpa [negative, complement] using other

/-- A load of a constant into an A register that registers no error is a single instruction in every
context, and what it leaves in the register is the constant, but for one that is negative and refers
ahead. -/
theorem emitLoadA_loads (i : Nat) (constant : evaluation.value.isConstant)
    (quiet : Faultless (emitLoadA i evaluation) context) :
    ∃ code, emitLoadA i evaluation = placeCode code ∧
      code.loadedA? = some (i % 8, loadedNumber evaluation) := by
  have integer := (Value.isConstant_iff.mp constant).2
  have known : (evaluation.value.isConstant && !evaluation.forward) = !evaluation.forward := by
    rw [constant, Bool.true_and]
  unfold Faultless emitLoadA at quiet
  unfold emitLoadA
  dsimp only at quiet ⊢
  rw [if_neg (by simp [integer]), known] at quiet ⊢
  split
  case isTrue small =>
    obtain ⟨nearby, few⟩ := Bool.and_eq_true_iff.mp small
    have number := UInt64.lt_iff_toNat_lt.mp (of_decide_eq_true few)
    refine ⟨.short _, rfl, ?_⟩
    rw [Code.loadedA?_small i number, loadedNumber_known nearby, Word.signed_eq,
      if_pos (Nat.lt_trans number (by decide))]
  case isFalse large =>
    rw [if_neg large] at quiet
    split
    case isTrue negative =>
      simp only [Bool.and_eq_true, decide_eq_true_iff] at negative
      obtain ⟨⟨nearby, below⟩, fits⟩ := negative
      refine ⟨.long _, rfl, ?_⟩
      rw [loadedA?_negative i below fits, loadedNumber_known nearby]
    case isFalse other =>
      rw [if_neg other] at quiet
      exact emitWide_loads i constant other quiet

/-- The least number that the form for complements has room for. -/
theorem emitLoadA_loads_least :
    let evaluation : Evaluation := ⟨.absolute (-4194304), false, []⟩
    let context := (Context.initial {} ⟨"", "", ""⟩ "MAIN").startPass .two
    evaluation.value.isConstant ∧ Faultless (emitLoadA 1 evaluation) context ∧
      ∃ code, emitLoadA 1 evaluation = placeCode code ∧ code.loadedA? = some (1, -4194304) := by
  intro evaluation context
  have constant : evaluation.value.isConstant := rfl
  have quiet : Faultless (emitLoadA 1 evaluation) context :=
    Bool.eq_false_iff.mp (by decide +kernel)
  obtain ⟨code, placed, loaded⟩ := emitLoadA_loads 1 constant quiet
  exact ⟨constant, quiet, code, placed, loaded⟩

end Address

end Asm

namespace Assembly

/-- A negative constant that is defined further on is cut to 22 bits without an error: `A1` gets
4194303, not -1. -/
theorem negative_cut :
    let lines : List SourceLine := [⟨1, "         IDENT    M", false⟩,
      ⟨2, "         A1       X", false⟩, ⟨3, "X        =        -1", false⟩, ⟨4, "         END", false⟩]
    let operand := ((Asm.evaluateOperand "X").run (passTwoAfter lines "MAIN" {} ⟨"", "", ""⟩ 1)).1
    let assembly := ofLines lines "MAIN" {} ⟨"", "", ""⟩
    operand.map (fun found => (found.value.isConstant, found.value.numeric.signed)) =
        some (true, -1) ∧
      assembly.reports = [] ∧
      assembly.objects.map (fun object => object.blocks.map fun block =>
        block.image.map (·.words)) = [[some [0x207fffff00000000], none]] ∧
      (Instruction.Code.long 0x207fffff).loadedA? = some (1, 4194303) := by
  decide +kernel

end Assembly

end CrayAssembler
