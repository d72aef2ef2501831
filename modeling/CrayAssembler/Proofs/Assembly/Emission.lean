import CrayAssembler.Proofs.Assembly.Constants
import CrayAssembler.Proofs.Assembly.Consulting

namespace CrayAssembler

open Matcher (Arg)
open InstructionSet (Part Encoding)
open Instruction (Code Parts parts ghIjk ghIJK ghIJk ghIjkm ghIJkm gHIJkm)

namespace Instruction

theorem parts_ghIjk {gh ijk : Nat} (inside : gh < 0o200) (fits : ijk < 0o1000) :
    (parts (ghIjk gh ijk)).gh = gh ∧ (parts (ghIjk gh ijk)).i * 0o100 +
      (parts (ghIjk gh ijk)).j * 8 + (parts (ghIjk gh ijk)).k = ijk := by
  simp only [parts, toNat_ghIjk]
  omega

theorem parts_ghIJK (gh i j k : Nat) :
    parts (ghIJK gh i j k) = ⟨gh % 0o200, i % 8, j % 8, k % 8⟩ := by
  simp only [parts, ghIJK, toNat_ghIjk, Parts.mk.injEq]
  omega

theorem gh_first_ghIjkm (gh ijkm : Nat) : (parts (first (ghIjkm gh ijkm))).gh = gh % 0o200 := by
  simp only [parts, toNat_first, ghIjkm, UInt32.toNat_ofNat', ijkmBits, Nat.shiftLeft_eq, Nat.one_mul]
  omega

theorem parts_first_gHIJkm (g h i jkm : Nat) :
    (parts (first (gHIJkm g h i jkm))).gh = g % 16 * 8 + h % 8 ∧
      (parts (first (gHIJkm g h i jkm))).i = i % 8 := by
  unfold gHIJkm
  rw [parts_first]
  dsimp only
  omega

namespace Code

/-- The parcel that tells the operation. -/
def first : Code → Parcel
  | short parcel => parcel
  | long pair => Instruction.first pair

/-- How many bits the code takes. -/
def bits : Code → Nat
  | short _ => parcelBits
  | long _ => 2 * parcelBits

end Code

end Instruction

namespace InstructionSet

/-- A field of an instruction holds what its part of the encoding says. -/
def Part.Holds (args : List Arg) (n : Nat) : Part → Prop
  | register arg => args[arg]? = some (.register n)
  | fixed value => n = value

namespace Encoding

/-- The fields of a parcel tell the operation of an encoding and the registers among its arguments. -/
def Carries (args : List Arg) (p : Parts) : Encoding → Prop
  | fields gh i j k => p.gh = gh ∧ i.Holds args p.i ∧ j.Holds args p.j ∧ k.Holds args p.k
  | wide gh i jk => p.gh = gh ∧ i.Holds args p.i ∧ jk.Holds args (p.j * 8 + p.k)
  | constant gh ijk => p.gh = gh ∧ p.i * 0o100 + p.j * 8 + p.k = ijk
  | branch gh _ => p.gh = gh
  | memory g i _ index =>
    p.gh / 8 = g ∧ args[i]? = some (.register p.i) ∧
      match index with
      | some n => args[n]? = some (.register (p.gh % 8))
      | none => p.gh % 8 = 0
  | loadA i value =>
    args[i]? = some (.register p.i) ∧
      if (Asm.expressionArg? args value).any Asm.isLiteral then p.gh = 0o100
      else p.gh ∈ [0o020, 0o021, 0o022]
  | loadS i value =>
    args[i]? = some (.register p.i) ∧
      if (Asm.expressionArg? args value).any Asm.isLiteral then p.gh = 0o120
      else p.gh ∈ [0o040, 0o041, 0o042, 0o043]
  | shift gh i _ _ => p.gh = gh ∧ args[i]? = some (.register p.i)
  | setSemaphore jk _ =>
    p.gh = 0o003 ∧ p.i ∈ [6, 7] ∧ args[jk]? = some (.register (p.j * 8 + p.k))
  | testSemaphore jk _ => p.gh = 0o003 ∧ p.i = 4 ∧ args[jk]? = some (.register (p.j * 8 + p.k))

/-- The arguments are what the encoding takes them for, and no number of a register is cut. -/
structure Suited (encoding : Encoding) (args : List Arg) : Prop where
  registers : ∀ place ∈ encoding.registers, ∃ n, args[place.1]? = some (.register n) ∧ n < place.2
  expressions : ∀ arg ∈ encoding.expressions, ∃ expr, args[arg]? = some (.expression expr)
  fits : encoding.fits

/-- How many bits a load of an A register takes: one parcel for a small number that is known. -/
def loadABits (context : Context) (expr? : Option Expr) : Nat :=
  let evaluation := ((Asm.operandValue expr?).run context).1
  if expr?.any Asm.isLiteral then 2 * parcelBits
  else if evaluation.value.isConstant && !evaluation.forward && evaluation.value.numeric < 64 then
    parcelBits
  else 2 * parcelBits

/-- How many bits a load of an S register takes: one parcel for a mask. -/
def loadSBits (expr? : Option Expr) : Nat :=
  if expr?.any Asm.isLiteral then 2 * parcelBits
  else
    match expr?.bind Expr.rootUnary? with
    | some (.maskRight, _) | some (.maskLeft, _) => parcelBits
    | _ => 2 * parcelBits

/-- How many bits an instruction takes. -/
def bits (context : Context) (args : List Arg) : Encoding → Nat
  | loadA _ value => loadABits context (Asm.expressionArg? args value)
  | loadS _ value => loadSBits (Asm.expressionArg? args value)
  | branch .. | memory .. => 2 * parcelBits
  | fields .. | wide .. | constant .. | shift .. | setSemaphore .. | testSemaphore .. => parcelBits

end Encoding

end InstructionSet

namespace Asm

/-- There is a current section. -/
def Seated (context : Context) : Prop :=
  context.moduleIndex < context.modules.length ∧
    context.sectionId.current < context.currentModule.sections.length

/-- In both contexts the same place is next in a section of the same type, and the statement has shown
the same code. -/
structure Poised (context later : Context) : Prop where
  settings : later.settings = context.settings
  pass : later.pass = context.pass
  generated : later.statement.generated = context.statement.generated
  type : later.currentSection.type = context.currentSection.type
  location : later.currentSection.locationBits = context.currentSection.locationBits
  origin : later.currentSection.originBits = context.currentSection.originBits
  seated : Seated context → Seated later

namespace Poised

variable {context middle later : Context}

theorem refl (context : Context) : Poised context context :=
  ⟨rfl, rfl, rfl, rfl, rfl, rfl, id⟩

theorem trans (first : Poised context middle) (second : Poised middle later) :
    Poised context later where
  settings := second.settings.trans first.settings
  pass := second.pass.trans first.pass
  generated := second.generated.trans first.generated
  type := second.type.trans first.type
  location := second.location.trans first.location
  origin := second.origin.trans first.origin
  seated := second.seated ∘ first.seated

theorem register (context : Context) (d : Diagnostic) : Poised context (context.register d) :=
  ⟨rfl, rfl, rfl, rfl, rfl, rfl, id⟩

end Poised

/-- Only symbols, literals and diagnostics are changed. -/
theorem poised_of_shell {context later : Context} (same : later.shell = context.shell) :
    Poised context later where
  settings := congrArg (·.settings) same
  pass := congrArg (·.pass) same
  generated := congrArg (·.statement.generated) same
  type := congrArg (·.type) (Context.currentSection_of_shell same)
  location := congrArg (·.locationBits) (Context.currentSection_of_shell same)
  origin := congrArg (·.originBits) (Context.currentSection_of_shell same)
  seated := by
    have index : later.moduleIndex = context.moduleIndex := congrArg (·.moduleIndex) same
    have modules : later.modules.length = context.modules.length := by
      have lengths := congrArg (·.modules.length) same
      simpa only [Context.shell, List.length_map] using lengths
    have current : later.sectionId.current = context.sectionId.current :=
      congrArg (·.sectionId.current) same
    have sections : later.currentModule.sections = context.currentModule.sections :=
      congrArg (·.sections) (Context.currentModule_of_shell same)
    unfold Seated
    rw [index, modules, current, sections]
    exact id

instance (context : Context) : Decidable (Seated context) :=
  inferInstanceAs (Decidable (_ ∧ _))

/-- The current section is changed, if there is one. -/
theorem currentSection_modify (context : Context) (change : Section → Section) :
    (context.modifySection change).currentSection =
      if Seated context then change context.currentSection else context.currentSection := by
  by_cases current : context.moduleIndex < context.modules.length
  · unfold Context.modifySection Context.currentSection
    rw [Context.currentModule_modifyModule current]
    refine (Module.getSection_modifySection ..).trans ?_
    show (if context.sectionId.current = context.sectionId.current ∧ _ then _ else _) = _
    simp only [Seated, current, true_and]
    rfl
  · rw [if_neg fun seated => current seated.1]
    unfold Context.modifySection Context.modifyModule Context.currentSection Context.currentModule
    rw [List.modify_eq_self (Nat.not_lt.mp current)]

theorem Seated.modifySection {context : Context} (seated : Seated context)
    (change : Section → Section) : Seated (context.modifySection change) := by
  refine ⟨Nat.lt_of_lt_of_eq seated.1 (List.length_modify ..).symm, ?_⟩
  rw [Context.modifySection, Context.currentModule_modifyModule seated.1]
  exact Nat.lt_of_lt_of_eq seated.2 (Module.length_modifySection ..).symm

/-- A change of what is written in the current section. -/
theorem Poised.modifyBlock (context : Context) (change : Section → ObjectBlock) :
    Poised context (context.modifySection fun sec => { sec with block := change sec }) := by
  have current := currentSection_modify context fun sec => { sec with block := change sec }
  refine ⟨rfl, rfl, rfl, ?_, ?_, ?_, fun seated => seated.modifySection _⟩
  all_goals
    rw [current]
    split <;> rfl

theorem poised_recordReference (context : Context) (kind : Object.EntryKind) (fieldLength : Nat)
    (value : Value) (parcel : Bool) :
    Poised context ((recordReference kind fieldLength value parcel).run context).2 := by
  generalize recorded : ((recordReference kind fieldLength value parcel).run context).2 = after
  obtain rfl | ⟨d, rfl⟩ | ⟨-, ⟨id, -, rfl⟩ | ⟨index, -, rfl⟩⟩ :=
    recordReference_cases context kind fieldLength value parcel recorded
  · exact .refl _
  · exact .register ..
  · exact .modifyBlock ..
  · exact .modifyBlock ..

/-- In a context, an action places one code that has a property, after it has done other things that
neither place nor show anything. -/
def Emits (context : Context) (action : AsmM Unit) (known : Code → Prop) : Prop :=
  ∃ code before, known code ∧ Poised context before ∧ action.run context = (placeCode code).run before

section Emitting

variable {α : Type} {context : Context} {known : Code → Prop}

theorem Emits.short {parcel : Parcel} (holds : known (.short parcel)) :
    Emits context (emitParcel parcel) known :=
  ⟨.short parcel, context, holds, .refl _, rfl⟩

theorem Emits.long {pair : ParcelPair} (value : Value) (parcel : Bool) (holds : known (.long pair)) :
    Emits context (emitAddressInstruction pair value parcel) known := by
  refine ⟨.long pair, _, holds, poised_recordReference context .standard Instruction.jkmBits value
    parcel, ?_⟩
  unfold placeCode emitAddressInstruction
  rw [recordReference_constant (rfl : (Value.absolute 0).isConstant = true)]
  rfl

theorem Emits.after {action : AsmM α} {rest : α → AsmM Unit}
    (poised : Poised context (action.run context).2)
    (emits : Emits (action.run context).2 (rest (action.run context).1) known) :
    Emits context (action >>= rest) known := by
  obtain ⟨code, before, holds, further, placed⟩ := emits
  exact ⟨code, before, holds, poised.trans further, placed⟩

theorem Emits.noted {kind : ErrorKind} {rest : AsmM Unit}
    (emits : ∀ context, Emits context rest known) :
    Emits context (error kind >>= fun _ => rest) known :=
  .after (.register ..) (emits _)

theorem Emits.warned {kind : WarningKind} {rest : AsmM Unit}
    (emits : ∀ context, Emits context rest known) :
    Emits context (warn kind >>= fun _ => rest) known :=
  .after (.register ..) (emits _)

theorem Emits.checkField {value : Value} {rest : AsmM Unit}
    (emits : ∀ context, Emits context rest known) :
    Emits context (checkField value >>= fun _ => rest) known := by
  unfold Asm.checkField
  split
  · exact .noted emits
  · exact emits context

theorem Emits.operandValue {expr? : Option Expr} {rest : Evaluation → AsmM Unit}
    (emits : ∀ later, Emits later (rest ((operandValue expr?).run context).1) known) :
    Emits context (operandValue expr? >>= rest) known :=
  .after (poised_of_shell (consulted_operandValue context expr?).shell) (emits _)

end Emitting

section Emitters

variable (context : Context) {known : Code → Prop}

theorem emits_branch (gh : Nat) (value : Value)
    (holds : ∀ address, known (.long (ghIjkm gh address))) :
    Emits context (emitBranch gh value) known := by
  unfold emitBranch
  dsimp only
  have rest : ∀ context, Emits context (emitAddressInstruction (ghIjkm gh
      (fieldNumber (branchTarget value) % (1 <<< branchAddressBits))) (branchTarget value) true) known :=
    fun _ => .long _ _ (holds _)
  split
  · exact .noted rest
  split
  · exact .noted rest
  · exact rest context

theorem emits_memoryReference (g h i : Nat) (value : Value)
    (holds : ∀ address, known (.long (gHIJkm g h i address))) :
    Emits context (emitMemoryReference g h i value) known := by
  unfold emitMemoryReference
  dsimp only
  have rest : ∀ context, Emits context (do
      if (memoryAddress value).isFloat then error .valueType else checkField (memoryAddress value)
      emitAddressInstruction (gHIJkm g h i (fieldNumber (memoryAddress value))) (memoryAddress value)
        false) known := by
    intro context
    have last : ∀ context, Emits context (emitAddressInstruction (gHIJkm g h i
        (fieldNumber (memoryAddress value))) (memoryAddress value) false) known :=
      fun _ => .long _ _ (holds _)
    split
    · exact .noted last
    · exact .checkField last
  split
  · exact .warned rest
  · exact rest context

theorem emits_loadA (i : Nat) (evaluation : Evaluation)
    (short : ∀ n, (evaluation.value.isConstant && !evaluation.forward &&
      evaluation.value.numeric < 64) = true → known (.short (ghIJk 0o022 i n)))
    (long : ∀ gh ∈ [0o020, 0o021], ∀ n, (evaluation.value.isConstant && !evaluation.forward &&
      evaluation.value.numeric < 64) = false → known (.long (ghIJkm gh i n))) :
    Emits context (emitLoadA i evaluation) known := by
  have rest : ∀ context, Emits context (do
      let known := evaluation.value.isConstant && !evaluation.forward
      if known && evaluation.value.numeric < 64 then
        emitParcel (ghIJk 0o022 i evaluation.value.numeric.toNat)
      else if known && evaluation.value.numeric.signed < 0 &&
          (~~~evaluation.value.numeric).fitsUnsigned Instruction.jkmBits then
        emitAddressInstruction (ghIJkm 0o021 i (~~~evaluation.value.numeric).toNat) (.absolute 0) false
      else
        checkField evaluation.value
        emitAddressInstruction (ghIJkm 0o020 i (fieldNumber evaluation.value)) evaluation.value
          false) known := by
    intro context
    dsimp only
    split
    case isTrue small => exact .short (short _ small)
    case isFalse large =>
      have large := eq_false_of_ne_true large
      split
      · exact .long _ _ (long 0o021 (by decide) _ large)
      · exact .checkField fun _ => .long _ _ (long 0o020 (by decide) _ large)
  unfold emitLoadA
  dsimp only
  split
  · exact .noted rest
  · exact rest context

theorem emits_mask (i : Nat) (right : Bool) (width : Value)
    (holds : ∀ gh ∈ [0o042, 0o043], ∀ n, known (.short (ghIJk gh i n))) :
    Emits context (emitMask i right width) known := by
  unfold emitMask
  split
  · exact .short (holds _ (by decide) _)
  split
  · exact .noted fun _ => .short (holds _ (by decide) _)
  split
  · exact .short (holds _ (by decide) _)
  · exact .short (holds _ (by decide) _)

theorem emits_loadSValue (i : Nat) (value : Value)
    (holds : ∀ gh ∈ [0o040, 0o041], ∀ n, known (.long (ghIJkm gh i n))) :
    Emits context (emitLoadSValue i value) known := by
  have direct : ∀ context, Emits context (emitAddressInstruction (ghIJkm 0o040 i (fieldNumber value))
      value false) known := fun _ => .long _ _ (holds _ (by decide) _)
  unfold emitLoadSValue
  dsimp only
  split
  · exact .checkField direct
  split
  · exact direct context
  split
  · exact .long _ _ (holds _ (by decide) _)
  · exact .noted direct

theorem emits_stored (i : Nat) (value : Value)
    (holds : ∀ gh ∈ [0o040, 0o041], ∀ n, known (.long (ghIJkm gh i n))) :
    Emits context (storedOrSelf value >>= emitLoadSValue i) known := by
  have rest (stored : Value) : ∀ context, Emits context (emitLoadSValue i stored) known :=
    fun context => emits_loadSValue context i stored holds
  unfold storedOrSelf
  split
  · exact rest value context
  split
  case h_1 word _ => exact rest (.absolute word) context
  case h_2 kind _ => exact .after (.register ..) (rest value _)

theorem emits_shift (gh i : Nat) (right : Bool) (count : Value)
    (holds : ∀ n, known (.short (ghIJk gh i n))) : Emits context (emitShift gh i right count) known := by
  have placed (jk : Nat) : ∀ context, Emits context (emitParcel (ghIJk gh i jk)) known :=
    fun _ => .short (holds jk)
  unfold emitShift
  dsimp only
  split <;> split
  · exact .noted (placed _)
  · exact placed _ context
  · exact .noted (placed _)
  · exact placed _ context

theorem emits_setSemaphore (jk : Nat) (value : Value)
    (holds : ∀ i ∈ [6, 7], known (.short (ghIJk 0o003 i jk))) :
    Emits context (emitSetSemaphore jk value) known := by
  have rest : ∀ context, Emits context
      (emitParcel (ghIJk 0o003 (if fieldNumber value = 1 then 7 else 6) jk)) known := by
    intro context
    refine .short (holds _ ?_)
    split <;> decide
  unfold emitSetSemaphore
  dsimp only
  split
  · exact .noted rest
  · exact rest context

theorem emits_testSemaphore (jk : Nat) (value : Value)
    (holds : known (.short (ghIJk 0o003 4 jk))) :
    Emits context (emitTestSemaphore jk value) known := by
  unfold emitTestSemaphore
  split
  · exact .noted fun _ => .short holds
  · exact .short holds

end Emitters

section Encoding

variable {encoding : Encoding} {args : List Arg}

theorem registerArg_eq {arg n : Nat} (found : args[arg]? = some (.register n)) :
    registerArg args arg = n := by
  unfold registerArg
  rw [found]

/-- A field with three bits holds what it should. -/
theorem holds_part {part : Part} {count : Nat}
    (register : ∀ arg, part.argument? = some arg → ∃ n, args[arg]? = some (.register n) ∧ n < count)
    (fits : part.fits count = true) : part.Holds args (partValue args part % count) := by
  cases part with
  | register arg =>
    obtain ⟨n, found, small⟩ := register arg rfl
    show args[arg]? = some (.register (registerArg args arg % count))
    rw [registerArg_eq found, Nat.mod_eq_of_lt small]
    exact found
  | fixed value => exact Nat.mod_eq_of_lt (of_decide_eq_true fits)

/-- The register of a load. -/
theorem field_of_suited {arg : Nat} (suited : encoding.Suited args)
    (member : (arg, 8) ∈ encoding.registers) :
    args[arg]? = some (.register (registerArg args arg % 8)) := by
  obtain ⟨n, found, small⟩ := suited.registers _ member
  rw [registerArg_eq found, Nat.mod_eq_of_lt small]
  exact found

theorem emits_encode_loadA (context : Context) {i value : Nat}
    (suited : (Encoding.loadA i value).Suited args) :
    Emits context (encode (.loadA i value) args) fun code =>
      Encoding.Carries args (parts code.first) (.loadA i value) ∧
        code.bits = Encoding.bits context args (.loadA i value) := by
  have iField := field_of_suited suited (List.mem_cons_self : (i, 8) ∈ [(i, 8)])
  simp only [encode, Encoding.Carries, Encoding.bits, Encoding.loadABits]
  generalize expressionArg? args value = expr?
  refine .operandValue fun later => ?_
  split
  case isTrue literal =>
    refine emits_memoryReference later _ _ _ _ fun n => ⟨?_, rfl⟩
    obtain ⟨gh, iPlace⟩ := Instruction.parts_first_gHIJkm 0o10 0 (registerArg args i) n
    rw [Code.first, gh, iPlace]
    exact ⟨iField, rfl⟩
  case isFalse =>
    refine emits_loadA later _ _ (fun n known => ⟨?_, (if_pos known).symm⟩)
      fun gh among n unknown => ⟨?_, (if_neg (by simp [unknown])).symm⟩
    · rw [Code.first, Instruction.parts_ghIJk]
      exact ⟨iField, (by decide : 0o022 % 0o200 ∈ [0o020, 0o021, 0o022])⟩
    · rw [Code.first, Instruction.parts_first]
      refine ⟨iField, ?_⟩
      rcases List.mem_pair.mp among with rfl | rfl
      · exact (by decide : 0o020 % 0o200 ∈ [0o020, 0o021, 0o022])
      · exact (by decide : 0o021 % 0o200 ∈ [0o020, 0o021, 0o022])

theorem emits_encode_loadS (context : Context) {i value : Nat}
    (suited : (Encoding.loadS i value).Suited args) :
    Emits context (encode (.loadS i value) args) fun code =>
      Encoding.Carries args (parts code.first) (.loadS i value) ∧
        code.bits = Encoding.bits context args (.loadS i value) := by
  have iField := field_of_suited suited (List.mem_cons_self : (i, 8) ∈ [(i, 8)])
  simp only [encode, Encoding.Carries, Encoding.bits, Encoding.loadSBits]
  generalize expressionArg? args value = expr?
  split
  case isTrue literal =>
    refine .operandValue fun later => emits_memoryReference later _ _ _ _ fun n => ⟨?_, rfl⟩
    obtain ⟨gh, iPlace⟩ := Instruction.parts_first_gHIJkm 0o12 0 (registerArg args i) n
    rw [Code.first, gh, iPlace]
    exact ⟨iField, rfl⟩
  case isFalse =>
    have mask (gh : Nat) (among : gh ∈ [0o042, 0o043]) (n : Nat) :
        args[i]? = some (.register (parts (ghIJk gh (registerArg args i) n)).i) ∧
          (parts (ghIJk gh (registerArg args i) n)).gh ∈ [0o040, 0o041, 0o042, 0o043] := by
      rw [Instruction.parts_ghIJk]
      refine ⟨iField, ?_⟩
      rcases List.mem_pair.mp among with rfl | rfl
      · exact (by decide : 0o042 % 0o200 ∈ [0o040, 0o041, 0o042, 0o043])
      · exact (by decide : 0o043 % 0o200 ∈ [0o040, 0o041, 0o042, 0o043])
    have masked (right : Bool) (inner : Expr) : Emits context (do
        emitMask (registerArg args i) right (← operandValue (some inner)).value) fun code =>
          (args[i]? = some (.register (parts code.first).i) ∧
            (parts code.first).gh ∈ [0o040, 0o041, 0o042, 0o043]) ∧ code.bits = parcelBits :=
      .operandValue fun later => emits_mask later _ _ _ fun gh among n => ⟨mask gh among n, rfl⟩
    have stored : Emits context (do
        let evaluation ← operandValue expr?
        emitLoadSValue (registerArg args i) (← storedOrSelf evaluation.value)) fun code =>
          (args[i]? = some (.register (parts code.first).i) ∧
            (parts code.first).gh ∈ [0o040, 0o041, 0o042, 0o043]) ∧ code.bits = 2 * parcelBits := by
      refine .operandValue fun later => emits_stored later _ _ fun gh among n => ⟨?_, rfl⟩
      rw [Code.first, Instruction.parts_first]
      refine ⟨iField, ?_⟩
      rcases List.mem_pair.mp among with rfl | rfl
      · exact (by decide : 0o040 % 0o200 ∈ [0o040, 0o041, 0o042, 0o043])
      · exact (by decide : 0o041 % 0o200 ∈ [0o040, 0o041, 0o042, 0o043])
    unfold emitLoadS
    cases expr?.bind Expr.rootUnary? with
    | none => exact stored
    | some root =>
      obtain ⟨op, inner⟩ := root
      cases op with
      | maskRight => exact masked true inner
      | maskLeft => exact masked false inner
      | _ => exact stored

/-- An instruction places one code, which tells its operation and the registers of the statement. -/
theorem emits_encode (context : Context) (suited : encoding.Suited args) :
    Emits context (encode encoding args) fun code =>
      encoding.Carries args (parts code.first) ∧ code.bits = encoding.bits context args := by
  have register {arg count : Nat} (member : (arg, count) ∈ encoding.registers) :
      args[arg]? = some (.register (registerArg args arg)) ∧ registerArg args arg < count := by
    obtain ⟨n, found, small⟩ := suited.registers _ member
    rw [registerArg_eq found]
    exact ⟨found, small⟩
  have fits := suited.fits
  cases encoding with
  | fields gh i j k =>
    simp only [Encoding.fits, Bool.and_eq_true, decide_eq_true_eq] at fits
    obtain ⟨⟨⟨opcode, fitsI⟩, fitsJ⟩, fitsK⟩ := fits
    have part {part : Part} (among : part ∈ [i, j, k]) (arg : Nat)
        (comes : part.argument? = some arg) :
        ∃ n, args[arg]? = some (.register n) ∧ n < 8 :=
      suited.registers (arg, 8) (List.mem_map_of_mem (List.mem_filterMap.mpr ⟨part, among, comes⟩))
    refine .short ⟨?_, rfl⟩
    simp only [Code.first, Instruction.parts_ghIJK]
    exact ⟨Nat.mod_eq_of_lt opcode, holds_part (part (by simp)) fitsI,
      holds_part (part (by simp)) fitsJ, holds_part (part (by simp)) fitsK⟩
  | wide gh i jk =>
    simp only [Encoding.fits, Bool.and_eq_true, decide_eq_true_eq] at fits
    obtain ⟨⟨opcode, fitsI⟩, fitsJk⟩ := fits
    have narrow (arg : Nat) (comes : i.argument? = some arg) :
        ∃ n, args[arg]? = some (.register n) ∧ n < 8 :=
      suited.registers (arg, 8) (List.mem_append_left _
        (List.mem_map_of_mem (Option.mem_toList.mpr comes)))
    have broad (arg : Nat) (comes : jk.argument? = some arg) :
        ∃ n, args[arg]? = some (.register n) ∧ n < 64 :=
      suited.registers (arg, 64) (List.mem_append_right _
        (List.mem_map_of_mem (Option.mem_toList.mpr comes)))
    refine .short ⟨?_, rfl⟩
    simp only [Code.first, Instruction.parts_ghIJk]
    refine ⟨Nat.mod_eq_of_lt opcode, holds_part narrow fitsI, ?_⟩
    have whole : partValue args jk / 8 % 8 * 8 + partValue args jk % 8 = partValue args jk % 64 := by
      omega
    rw [whole]
    exact holds_part broad fitsJk
  | constant gh ijk =>
    simp only [Encoding.fits, Bool.and_eq_true, decide_eq_true_eq] at fits
    exact .short ⟨Instruction.parts_ghIjk fits.1 fits.2, rfl⟩
  | branch gh address =>
    simp only [Encoding.fits, decide_eq_true_eq] at fits
    refine .operandValue fun later => emits_branch later gh _ fun n => ⟨?_, rfl⟩
    exact (Instruction.gh_first_ghIjkm gh n).trans (Nat.mod_eq_of_lt fits)
  | memory g i address index =>
    simp only [Encoding.fits, decide_eq_true_eq] at fits
    have carries (n : Nat) : Encoding.Carries args
        (parts (Instruction.first (gHIJkm g ((index.map (registerArg args)).getD 0)
          (registerArg args i) n))) (.memory g i address index) := by
      obtain ⟨gh, iField⟩ := Instruction.parts_first_gHIJkm g ((index.map (registerArg args)).getD 0)
        (registerArg args i) n
      refine ⟨by omega, ?_, ?_⟩
      · rw [iField]
        exact field_of_suited suited List.mem_cons_self
      · rw [gh]
        cases index with
        | none =>
          simp only [Option.map_none, Option.getD_none]
          omega
        | some h =>
          simp only [Option.map_some, Option.getD_some]
          rw [show (g % 16 * 8 + registerArg args h % 8) % 8 = registerArg args h % 8 by omega]
          exact field_of_suited suited (List.mem_cons_of_mem _ List.mem_cons_self)
    cases address with
    | none =>
      show Emits context (emitMemoryReference g ((index.map (registerArg args)).getD 0)
        (registerArg args i) (.absolute 0)) _
      exact emits_memoryReference context _ _ _ _ fun n => ⟨carries n, rfl⟩
    | some arg =>
      exact .operandValue fun later => emits_memoryReference later _ _ _ _ fun n => ⟨carries n, rfl⟩
  | loadA i value => exact emits_encode_loadA context suited
  | loadS i value => exact emits_encode_loadS context suited
  | shift gh i count right =>
    simp only [Encoding.fits, decide_eq_true_eq] at fits
    refine .operandValue fun later => emits_shift later _ _ _ _ fun n => ⟨?_, rfl⟩
    simp only [Code.first, Instruction.parts_ghIJk]
    exact ⟨Nat.mod_eq_of_lt fits, field_of_suited suited List.mem_cons_self⟩
  | setSemaphore jk value =>
    obtain ⟨found, small⟩ := register (List.mem_cons_self : (jk, 64) ∈ [(jk, 64)])
    have jk_eq : registerArg args jk / 8 % 8 * 8 + registerArg args jk % 8 = registerArg args jk := by
      omega
    refine .operandValue fun later => emits_setSemaphore later _ _ fun i among => ⟨?_, rfl⟩
    simp only [Code.first, Instruction.parts_ghIJk]
    refine ⟨rfl, ?_, ?_⟩
    · rcases List.mem_pair.mp among with rfl | rfl
      · exact (by decide : 6 % 8 ∈ [6, 7])
      · exact (by decide : 7 % 8 ∈ [6, 7])
    · rw [jk_eq]
      exact found
  | testSemaphore jk value =>
    obtain ⟨found, small⟩ := register (List.mem_cons_self : (jk, 64) ∈ [(jk, 64)])
    have jk_eq : registerArg args jk / 8 % 8 * 8 + registerArg args jk % 8 = registerArg args jk := by
      omega
    refine .operandValue fun later => emits_testSemaphore later _ _ ⟨?_, rfl⟩
    simp only [Code.first, Instruction.parts_ghIJk]
    refine ⟨rfl, rfl, ?_⟩
    rw [jk_eq]
    exact found

end Encoding

end Asm

namespace InstructionSet

open Matcher (Suits slots)

variable {result operand : String} {flexible : Bool} {found : Matcher.Found Rule}

theorem register_of_isRegister {items : List PatternItem} {args : List Arg} {arg count : Nat}
    (suits : List.Forall₂ Suits (slots items) args)
    (slot : (slots items)[arg]?.any (Rule.isRegister count) = true) :
    ∃ n, args[arg]? = some (.register n) ∧ n < count := by
  obtain ⟨item, place, isRegister⟩ := (Option.any_eq_true ..).mp slot
  obtain ⟨taken, known, suit⟩ := Matcher.getElem?_of_suits suits place
  cases suit with
  | expression expr => nomatch isRegister
  | @register register number valid same =>
    exact ⟨_, known, Nat.lt_of_lt_of_le valid (of_decide_eq_true isRegister)⟩

/-- What is found has the arguments that its rule calls for. -/
theorem suited_of_agrees {rule : Rule} {items : List PatternItem} {args : List Arg}
    (agrees : rule.Agrees items) (suits : List.Forall₂ Suits (slots items) args) :
    rule.encoding.Suited args where
  registers place member := register_of_isRegister suits (agrees.registers place member)
  expressions arg member := by
    obtain ⟨taken, known, suit⟩ := Matcher.getElem?_of_suits suits (agrees.expressions arg member)
    cases suit
    exact ⟨_, known⟩
  fits := agrees.fits

end InstructionSet

namespace Asm

section Statements

variable {context : Context} {fields : Fields} {found : Matcher.Found InstructionSet.Rule}

/-- An instruction that may stand where it does is encoded. -/
theorem run_machineInstruction (known : context.instruction? fields = some found)
    (allowed : context.currentSection.type.allowsInstructions = true)
    (same : ∀ pair ∈ found.handler.same,
      registerArg found.args pair.1 = registerArg found.args pair.2) :
    ((machineInstruction fields).run context).2 =
      { ((encode found.handler.encoding found.args).run (context.opened fields.location)).2 with
        inInstruction := false } := by
  rw [machineInstruction_of_found known, if_pos allowed]
  unfold placeInstruction
  dsimp only
  rw [if_pos]
  · rfl
  · exact (Option.all_eq_true ..).mpr fun pair member => decide_eq_true (same pair member)

/-- Whatever is found for a statement, each number of an argument in its rule means a register or an
expression of the statement as the rule takes it, no register is cut, and each one that the pattern
leaves open is told. The statement places one code, the first parcel of which tells the operation and
these registers. -/
theorem machineInstruction_carries (known : context.instruction? fields = some found) :
    (∃ row ∈ InstructionSet.table.rows, row.handler = found.handler ∧
      Matcher.Instance context.settings.flexible row.items
        (.ofText fields.result context.settings.flexible)
        (.ofText fields.operand context.settings.flexible) found.args ∧
      ∀ slot ∈ (Matcher.slots row.items).zipIdx, ∀ kind, slot.1 = .register kind none →
        kind.numbered → found.handler.tells slot.2) ∧
    (∀ place ∈ found.handler.encoding.registers, ∃ n,
      found.args[place.1]? = some (.register n) ∧ n < place.2) ∧
    (∀ arg ∈ found.handler.encoding.expressions, ∃ expr,
      found.args[arg]? = some (.expression expr)) ∧
    (∀ pair ∈ found.handler.same, (∃ n, found.args[pair.1]? = some (.register n)) ∧
      ∃ n, found.args[pair.2]? = some (.register n)) ∧
    (context.currentSection.type.allowsInstructions →
      (∀ pair ∈ found.handler.same, found.args[pair.1]? = found.args[pair.2]?) →
      ∃ code before, found.handler.encoding.Carries found.args (parts code.first) ∧
        Poised (context.opened fields.location) before ∧
        ((machineInstruction fields).run context).2 =
          { ((placeCode code).run before).2 with inInstruction := false } ∧
        (context.pass = .two → ((machineInstruction fields).run context).2.statement.generated =
          (context.opened fields.location).statement.generated ++ [code.text])) := by
  obtain ⟨items, member, fits⟩ := Matcher.instance_of_find (find_of_instruction? known)
  have agrees := InstructionSet.agrees_of_mem member
  have suits := fits.suits
  have suited := InstructionSet.suited_of_agrees agrees suits
  refine ⟨⟨_, member, rfl, fits, agrees.told⟩, suited.registers, suited.expressions, ?_, ?_⟩
  · intro pair same
    obtain ⟨first, second⟩ := agrees.same pair same
    obtain ⟨n, left, -⟩ := InstructionSet.register_of_isRegister suits first
    obtain ⟨m, right, -⟩ := InstructionSet.register_of_isRegister suits second
    exact ⟨⟨n, left⟩, m, right⟩
  · intro allowed same
    have agree : ∀ pair ∈ found.handler.same,
        registerArg found.args pair.1 = registerArg found.args pair.2 := by
      intro pair member
      unfold registerArg
      rw [same pair member]
    have run := run_machineInstruction known allowed agree
    obtain ⟨code, before, ⟨carries, -⟩, poised, placed⟩ :=
      emits_encode (context.opened fields.location) suited
    rw [placed] at run
    refine ⟨code, before, carries, poised, run, fun second => ?_⟩
    rw [run, ← poised.generated]
    exact generated_placeCode (poised.pass.trans (opened_second second _)) code

/-- A merge whose first operand is also its result. -/
def mergeFields : Fields := intoS1 "S2!S1&S3"

/-- The register that is written twice is told once. -/
theorem machineInstruction_carries_merge : ∃ (found : Matcher.Found InstructionSet.Rule) (code : Code),
    secondStart.instruction? mergeFields = some found ∧
      found.args = [.register 1, .register 2, .register 1, .register 3] ∧
      parts code.first = ⟨0o050, 1, 2, 3⟩ ∧
      ((machineInstruction mergeFields).run secondStart).2.statement.generated = [code.text] := by
  have known : secondStart.instruction? mergeFields = some InstructionSet.mergeFound :=
    instruction?_intoS1 (by decide +kernel : ("S2!S1&S3", _) ∈ InstructionSet.intoS1Found)
  have allowed : secondStart.currentSection.type.allowsInstructions = true := by decide +kernel
  have fresh : (secondStart.opened mergeFields.location).statement.generated = [] := by
    decide +kernel
  obtain ⟨-, -, -, -, placed⟩ := machineInstruction_carries known
  rw [fresh] at placed
  obtain ⟨code, before, ⟨gh, i, j, k⟩, -, -, shown⟩ := placed allowed (by rintro _ ⟨⟩; rfl)
  refine ⟨_, code, known, rfl, ?_, shown rfl⟩
  have field {n m : Nat} (same : some (Arg.register n) = some (.register m)) : m = n := by
    cases same
    rfl
  have fields : parts code.first = ⟨(parts code.first).gh, (parts code.first).i,
    (parts code.first).j, (parts code.first).k⟩ := rfl
  rw [fields, gh, field i, field j, field k]

end Statements

end Asm

end CrayAssembler
