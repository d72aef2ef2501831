import CrayAssembler.Proofs.Assembly.Chain
import CrayAssembler.Proofs.Walk.Directives

namespace CrayAssembler

namespace Value

variable {V : Value → Prop}

theorem Closed.branchTarget (closed : Closed V) {value : Value} (holds : V value) :
    V (Asm.branchTarget value) := by
  unfold Asm.branchTarget
  split
  · exact closed.convert _ _ holds
  · exact holds

theorem Closed.memoryAddress (closed : Closed V) {value : Value} (holds : V value) :
    V (Asm.memoryAddress value) := by
  unfold Asm.memoryAddress
  split
  · exact closed.convert _ _ holds
  · exact holds

theorem Closed.valueOrUndefined (closed : Closed V) {evaluation? : Option Evaluation}
    (known : ∀ found, evaluation? = some found → V found.value) :
    V (Asm.valueOrUndefined evaluation?) := by
  cases evaluation? with
  | none => exact closed.undefined
  | some found => exact known found rfl

end Value

namespace Asm

/-- What has to be shown beyond directives of any kind where fields are placed in the current section;
`image` says that the section has one. -/
structure Places (regard : Regard) (V : Value → Prop) (image : Prop) : Prop extends
    Reads regard V where
  /-- The type of the section may be asked for. -/
  atImage : ∀ {α : Type} {next : Context → AsmM α} {Q : α → Prop},
    (∀ {here there}, Context.Resembles here there → next here = next there) →
    (∀ context, (context.currentSection.type.allowsImage → image) → regard.Gives (next context) Q) →
    regard.Gives (get >>= next) Q
  emitBits : ∀ {width : Nat} (bits : Word), width ≤ wordBits → regard.Keeps (emitBits width bits)
  reference : ∀ (use : Use) {value : Value} {width : Nat} (bits : Word), V (use.stored value) →
    image → use.fieldLength ≤ width → 0 < width → width ≤ wordBits →
    regard.Keeps (do use.record value; Asm.emitBits width bits : AsmM Unit)
  reserveBits : ∀ bits, regard.Keeps (reserveBits bits)
  setLocation : ∀ fields, regard.Keeps (setLocation fields)
  setOrigin : ∀ fields, regard.Keeps (setOrigin fields)

section Bits

variable {regard : Regard}

section Sees

variable (sees : Sees regard) (moved : ∀ change, regard.Keeps (modifySection change))
  (noted : ∀ d, regard.Keeps (note d))

include sees moved noted

theorem Sees.emitBits (width : Nat) (bits : Word) : regard.Keeps (emitBits width bits) := by
  refine sees.view (fun context => by rw [context.currentSection_sight]; rfl) fun context => ?_
  dsimp only
  split
  · exact moved _
  · exact (moved _).bind fun _ => noted _

theorem Sees.recordReference (kind : Object.EntryKind) (fieldLength : Nat) (value : Value)
    (parcel : Bool) : regard.Keeps (recordReference kind fieldLength value parcel) := by
  refine sees.view (fun context => by rw [context.currentSection_sight]; rfl) fun context => ?_
  dsimp only
  split
  · exact .pure trivial
  split
  · split
    · exact noted _
    split
    · split
      · exact moved _
      · exact .pure trivial
    · exact .pure trivial
  split
  · split
    · exact noted _
    split
    · split
      · exact moved _
      · exact .pure trivial
    · exact .pure trivial
  · exact .pure trivial

theorem Sees.forceParcelBoundary : regard.Keeps forceParcelBoundary := by
  refine .bindGet (fun alike => by rw [alike.parcelBit]) fun context => ?_
  dsimp only
  split
  · exact sees.emitBits moved noted _ _
  · exact .pure trivial

end Sees

theorem Changes.modifySection (changes : Changes regard) (change : Section → Section) :
    regard.Keeps (modifySection change) := by
  have read : Asm.modifySection change = get >>= fun context => Asm.modifyModule fun module =>
      module.modifySection context.sectionId.current change := rfl
  rw [read]
  exact .bindGet (fun alike => by rw [alike.sectionId]) fun _ =>
    changes.modifyModule (fun _ => rfl) fun _ => rfl

end Bits

section Placing

variable {regard : Regard} {V : Value → Prop} {image : Prop}

variable (places : Places regard V image)

include places

/-- A field is placed and then more is done. -/
theorem Places.referenceThen (use : Use) {value : Value} {width : Nat} (bits : Word)
    (fitting : V (use.stored value)) (holds : image) (inside : use.fieldLength ≤ width)
    (positive : 0 < width) (narrow : width ≤ wordBits) {next : Unit → AsmM Unit}
    (rest : ∀ value, regard.Keeps (next value)) :
    regard.Keeps (do
      use.record value
      Asm.emitBits width bits
      next ()) := by
  have placed := places.reference use bits fitting holds inside positive narrow
  have grouped := placed.bind rest
  rwa [bind_assoc] at grouped

theorem Places.showGenerated (text : String) : regard.Keeps (showGenerated text) := by
  refine places.view (fun _ => rfl) fun context => ?_
  split
  · exact places.shown ⟨fun _ => rfl, fun _ _ _ => rfl⟩
  · exact .pure trivial

theorem Places.emitParcel (parcel : Parcel) : regard.Keeps (emitParcel parcel) :=
  (places.emitBits _ (by decide)).bind fun _ => places.showGenerated _

theorem Places.emitWord (word : Word) : regard.Keeps (emitWord word) :=
  (places.emitBits _ (Nat.le_refl _)).bind fun _ => places.showGenerated _

theorem Places.branch (instruction : ParcelPair) {value : Value} (fitting : V value)
    (holds : image) : regard.Keeps (emitAddressInstruction instruction (branchTarget value) true) :=
  places.referenceThen .branch _ (places.values.branchTarget fitting) holds (by decide) (by decide)
    (by decide) fun _ => places.showGenerated _

theorem Places.memory (instruction : ParcelPair) {value : Value} (fitting : V value)
    (holds : image) : regard.Keeps (emitAddressInstruction instruction (memoryAddress value) false) :=
  places.referenceThen .memory _ (places.values.memoryAddress fitting) holds (by decide) (by decide)
    (by decide) fun _ => places.showGenerated _

theorem Places.load (instruction : ParcelPair) {value : Value} (fitting : V value) (holds : image) :
    regard.Keeps (emitAddressInstruction instruction value false) :=
  places.referenceThen .load _ fitting holds (by decide) (by decide) (by decide)
    fun _ => places.showGenerated _

theorem Places.emitField {width : Nat} {value : Value} (fitting : V value) (holds : image)
    (positive : 0 < width) (narrow : width ≤ wordBits) : regard.Keeps (emitField width value) :=
  places.referenceThen (.data width) _ fitting holds (Nat.le_refl _) positive narrow
    fun _ => places.showGenerated _

theorem Places.forceParcelBoundary : regard.Keeps forceParcelBoundary := by
  refine .bindGet (fun alike => by rw [alike.parcelBit]) fun context => ?_
  dsimp only
  split
  · exact places.emitBits _ (Nat.le_trans (Nat.sub_le _ _) (by decide))
  · exact .pure trivial

theorem Places.forceWordBoundary : regard.Keeps forceWordBoundary := by
  refine .bindGet (fun alike => by rw [alike.wordBit]) fun context => ?_
  dsimp only
  split
  · exact places.emitBits _ (Nat.sub_le _ _)
  · exact .pure trivial

end Placing

section Data

theorem Faults.storable {regard : Regard} {V : Value → Prop} (faults : Faults regard)
    (values : Value.Closed V) {value : Value} (fitting : V value) :
    regard.Gives (storable value) V := by
  unfold Asm.storable
  split
  · exact .pure fitting
  · split
    · exact .pure (values.absolute _)
    · exact (faults.error _).bind fun _ => .pure (values.absolute _)

variable {regard : Regard} {V : Value → Prop} {image : Prop} (places : Places regard V image)

include places

theorem Places.emitExpression {expr : Expr} (keyed : expr.Keyed) (holds : image) :
    regard.Keeps (emitExpression expr) := by
  refine (places.evaluateExpr fun _ => keyed).bind fun evaluation? known => ?_
  refine (places.storable places.values (places.values.valueOrUndefined known)).bind fun value fitting => ?_
  exact places.emitField fitting holds (by decide) (Nat.le_refl _)

theorem Places.emitItem (holds : image) (item : String) : regard.Keeps (emitItem item) := by
  refine (places.parseOperand item).bind fun expr? keyed => ?_
  cases expr? with
  | none => exact places.emitWord 0
  | some expr => exact places.emitExpression (keyed expr rfl) holds

theorem Places.emitDataItem (holds : image) (item : String) : regard.Keeps (emitDataItem item) := by
  refine (places.parseOperand item).bind fun expr? keyed => ?_
  split
  · exact Regard.Keeps.forM fun word _ => places.emitWord word
  · exact places.emitExpression (keyed _ rfl) holds
  · exact places.emitWord 0

/-- What is done where data is allowed is done where there is an image. -/
theorem Places.whereData {action : AsmM Unit} (inside : image → regard.Keeps action) :
    regard.Keeps (whereData action) := by
  refine places.atImage (fun alike => by rw [alike.type]) fun context imaged => ?_
  split
  case isTrue holds => exact inside (imaged holds)
  case isFalse => exact places.error _

theorem Places.emitItems {emit : String → AsmM Unit} (each : image → ∀ item, regard.Keeps (emit item))
    (fields : Fields) : regard.Keeps (emitItems emit fields) := by
  refine places.whereData fun holds => ?_
  refine places.forceWordBoundary.bind fun _ => ?_
  refine (places.defineWordLabel _).bind fun _ => ?_
  exact Regard.Keeps.forM fun item _ => each holds item

theorem Places.constants (fields : Fields) : regard.Keeps (constants fields) :=
  places.emitItems places.emitItem fields

theorem Places.data (fields : Fields) : regard.Keeps (data fields) :=
  places.emitItems places.emitDataItem fields

theorem Places.defineFieldLabel (location : String) : regard.Keeps (defineFieldLabel location) := by
  refine .bindGet (fun alike => by
    dsimp only
    rw [alike.wordBit, alike.parcelBit]) fun context => ?_
  dsimp only
  split
  · exact places.defineWordLabel _
  split
  · exact places.defineParcelLabel _
  split
  · exact places.warn _
  · exact .pure trivial

theorem Places.emitVariable {width : Nat} (narrow : width ≤ wordBits) (expr : String)
    (holds : image) : regard.Keeps (emitVariable width expr) := by
  refine (places.evaluateOperand expr).bind fun evaluation? known => ?_
  refine (places.storable places.values (places.values.valueOrUndefined known)).bind fun value fitting => ?_
  have field : regard.Keeps (if 0 < width then Asm.emitField width value else pure ()) := by
    split
    case isTrue positive => exact places.emitField fitting holds positive narrow
    case isFalse => exact .pure _
  exact .complain (places.warn _) field

theorem Places.emitVariableItem (holds : image) (item : String) :
    regard.Keeps (emitVariableItem item) := by
  unfold Asm.emitVariableItem
  split
  · exact places.error _
  refine (places.absoluteOperand _).bind fun width? => ?_
  cases width? with
  | none => exact .pure trivial
  | some width =>
    dsimp only
    split
    · exact places.error _
    split
    · exact places.error _
    case isFalse narrow _ => exact places.emitVariable (Nat.not_lt.mp narrow) _ holds

theorem Places.variableFields (fields : Fields) : regard.Keeps (variableFields fields) := by
  refine places.whereData fun holds => ?_
  refine (places.defineFieldLabel _).bind fun _ => ?_
  exact Regard.Keeps.forM fun item _ => places.emitVariableItem holds item

end Data

section Instructions

theorem keyed_expressionArg? {args : List Matcher.Arg} (keyed : ∀ arg ∈ args, arg.Keyed) (n : Nat) :
    ∀ expr ∈ expressionArg? args n, expr.Keyed := by
  intro expr member
  unfold expressionArg? at member
  split at member
  case h_1 found =>
    obtain ⟨⟩ := member
    exact keyed _ (List.mem_of_getElem? found)
  case h_2 => nomatch member

theorem Consults.operandValue {regard : Regard} {V : Value → Prop} {sized : Prop}
    (consults : Consults regard V sized) {expr? : Option Expr}
    (keyed : sized → ∀ expr ∈ expr?, expr.Keyed) :
    regard.Gives (operandValue expr?) fun found => V found.value := by
  have undefined : ∀ evaluation? : Option Evaluation,
      (∀ found, evaluation? = some found → V found.value) →
      V (evaluation?.getD ⟨.undefined, true, []⟩).value := by
    intro evaluation? known
    cases evaluation? with
    | none => exact consults.values.undefined
    | some found => exact known found rfl
  unfold Asm.operandValue
  cases expr? with
  | none => exact .pure (undefined none noValue)
  | some expr =>
    exact (consults.evaluateExpr fun counts => keyed counts expr rfl).bind fun evaluation? known =>
      .pure (undefined _ known)

variable {regard : Regard} {V : Value → Prop} {image : Prop} (places : Places regard V image)

include places

theorem Places.checkField (value : Value) : regard.Keeps (checkField value) := by
  unfold Asm.checkField
  split
  · exact places.error _
  · exact .pure _

theorem Places.emitBranch (holds : image) (gh : Nat) {value : Value} (fitting : V value) :
    regard.Keeps (emitBranch gh value) := by
  have emitted := places.branch
    (Instruction.ghIjkm gh (fieldNumber (Asm.branchTarget value) % (1 <<< branchAddressBits))) fitting
    holds
  unfold Asm.emitBranch
  dsimp only
  split
  · exact (places.error _).bind fun _ => emitted
  split
  · exact (places.error _).bind fun _ => emitted
  · exact emitted

theorem Places.emitMemoryReference (holds : image) (g h i : Nat) {value : Value} (fitting : V value) :
    regard.Keeps (emitMemoryReference g h i value) := by
  have emitted := places.memory (Instruction.gHIJkm g h i (fieldNumber (Asm.memoryAddress value)))
    fitting holds
  refine .complain (places.warn _) ?_
  split
  · exact (places.error _).bind fun _ => emitted
  · exact (places.checkField _).bind fun _ => emitted

theorem Places.emitLoadA (holds : image) (i : Nat) {evaluation : Evaluation}
    (fitting : V evaluation.value) : regard.Keeps (emitLoadA i evaluation) := by
  refine .complain (places.error _) ?_
  split
  · exact places.emitParcel _
  split
  · exact places.load _ (places.values.absolute 0) holds
  · refine (places.checkField _).bind fun _ => ?_
    exact places.load _ fitting holds

theorem Places.emitMask (i : Nat) (right : Bool) (width : Value) :
    regard.Keeps (emitMask i right width) := by
  unfold Asm.emitMask
  split
  · exact places.emitParcel _
  split
  · exact (places.error _).bind fun _ => places.emitParcel _
  split
  · exact places.emitParcel _
  · exact places.emitParcel _

theorem Places.emitLoadSValue (holds : image) (i : Nat) {value : Value} (fitting : V value) :
    regard.Keeps (emitLoadSValue i value) := by
  have direct := places.load (Instruction.ghIJkm 0o040 i (fieldNumber value)) fitting holds
  unfold Asm.emitLoadSValue
  dsimp only
  split
  · exact (places.checkField _).bind fun _ => direct
  split
  · exact direct
  split
  · exact places.load _ (places.values.absolute 0) holds
  · exact (places.error _).bind fun _ => direct

theorem Places.storedOrSelf {value : Value} (fitting : V value) :
    regard.Gives (storedOrSelf value) V := by
  unfold Asm.storedOrSelf
  split
  · exact .pure fitting
  · split
    · exact .pure (places.values.absolute _)
    · exact (places.error _).bind fun _ => .pure fitting

theorem Places.emitLoadS (holds : image) (i : Nat) {expr? : Option Expr}
    (keyed : ∀ expr ∈ expr?, expr.Keyed) :
    regard.Keeps (emitLoadS i expr?) := by
  have operand {op : UnaryOp} {inner : Expr} (found : expr?.bind Expr.rootUnary? = some (op, inner)) :
      ∀ expr ∈ some inner, expr.Keyed := by
    rintro _ ⟨⟩
    obtain ⟨expr, member, root⟩ := Option.bind_eq_some_iff.mp found
    exact Expr.keyed_rootUnary? (keyed expr member) root
  unfold Asm.emitLoadS
  split
  case h_1 found =>
    exact (places.operandValue fun _ => operand found).bind fun _ _ => places.emitMask i true _
  case h_2 found =>
    exact (places.operandValue fun _ => operand found).bind fun _ _ => places.emitMask i false _
  · refine (places.operandValue fun _ => keyed).bind fun _ fitting => ?_
    exact (places.storedOrSelf fitting).bind fun _ stored => places.emitLoadSValue holds i stored

theorem Places.emitShift (gh i : Nat) (right : Bool) (count : Value) :
    regard.Keeps (emitShift gh i right count) :=
  .complain (places.error _) (places.emitParcel _)

theorem Places.emitSetSemaphore (jk : Nat) (value : Value) : regard.Keeps (emitSetSemaphore jk value) :=
  .complain (places.error _) (places.emitParcel _)

theorem Places.emitTestSemaphore (jk : Nat) (value : Value) :
    regard.Keeps (emitTestSemaphore jk value) :=
  .complain (places.error _) (places.emitParcel _)

theorem Places.encode (holds : image) (encoding : InstructionSet.Encoding) {args : List Matcher.Arg}
    (keyed : ∀ arg ∈ args, arg.Keyed) : regard.Keeps (encode encoding args) := by
  have operand (n : Nat) := places.operandValue fun _ => keyed_expressionArg? keyed n
  unfold Asm.encode
  cases encoding with
  | fields gh i j k => exact places.emitParcel _
  | wide gh i jk => exact places.emitParcel _
  | constant gh ijk => exact places.emitParcel _
  | branch gh address =>
    exact (operand address).bind fun _ fitting => places.emitBranch holds gh fitting
  | memory g i address index =>
    cases address with
    | none => exact places.emitMemoryReference holds _ _ _ (places.values.absolute 0)
    | some n =>
      exact (operand n).bind fun _ fitting => places.emitMemoryReference holds _ _ _ fitting
  | loadA i value =>
    refine (operand value).bind fun _ fitting => ?_
    split
    · exact places.emitMemoryReference holds _ _ _ fitting
    · exact places.emitLoadA holds _ fitting
  | loadS i value =>
    dsimp only
    split
    · exact (operand value).bind fun _ fitting => places.emitMemoryReference holds _ _ _ fitting
    · exact places.emitLoadS holds _ (keyed_expressionArg? keyed value)
  | shift gh i count right =>
    exact (operand count).bind fun _ _ => places.emitShift gh _ right _
  | setSemaphore jk value =>
    exact (operand value).bind fun _ _ => places.emitSetSemaphore _ _
  | testSemaphore jk value =>
    exact (operand value).bind fun _ _ => places.emitTestSemaphore _ _

theorem Places.placeInstruction (holds : image) (location : String) (rule : InstructionSet.Rule)
    {args : List Matcher.Arg} (keyed : ∀ arg ∈ args, arg.Keyed) :
    regard.Keeps (placeInstruction location rule args) := by
  have mark (inInstruction : Bool) : regard.Keeps
      (modify fun context => { context with inInstruction } : AsmM PUnit) :=
    places.adjust (.inInstruction inInstruction)
  refine places.forceParcelBoundary.bind fun _ => ?_
  refine (places.defineParcelLabel _).bind fun _ => ?_
  dsimp only
  split
  · refine (mark true).bind fun _ => ?_
    exact (places.encode holds _ keyed).bind fun _ => mark false
  · exact places.error _

theorem Places.machineInstruction (fields : Fields) : regard.Keeps (machineInstruction fields) := by
  refine places.atImage (fun alike => by rw [alike.settings, alike.type]) fun context imaged => ?_
  dsimp only
  split
  · exact places.error _
  · exact places.error _
  case h_3 found success =>
    have keyed := Matcher.keyed_find (laid_tokenize _ _) (laid_tokenize _ _) success
    split
    case isTrue allowed =>
      have image : context.currentSection.type.allowsImage := by
        revert allowed
        cases context.currentSection.type <;> decide
      exact places.placeInstruction (imaged image) _ _ keyed
    case isFalse => exact places.error _

end Instructions

section Counters

variable {regard : Regard} {V : Value → Prop} {image : Prop}

theorem bitsAhead_le {size current bit : Nat} (inside : bit < size) :
    Section.bitsAhead size current bit ≤ size := by
  unfold Section.bitsAhead
  split <;> omega

/-- A statement that moves counters of the current section. -/
theorem Reads.move (reads : Reads regard V) {operand location : String} {move : Nat → Section → Section}
    {counter : Section → Nat} (same : ∀ sec : Section, counter sec.bare = counter sec)
    (filled : ∀ width bits, regard.Keeps (emitBits width bits))
    (moved : ∀ word, regard.Keeps (modifySection (move word))) :
    regard.Keeps (do
      forceWordBoundary
      match ← Asm.counterOperand operand with
      | none => return ()
      | some word =>
        if word < counter (← get).currentSection then Asm.error .operandField
        else
          modifySection (move word)
          Asm.defineWordLabel location) := by
  have boundary : regard.Keeps forceWordBoundary := by
    refine .bindGet (fun alike => by rw [alike.wordBit]) fun context => ?_
    dsimp only
    split
    · exact filled _ _
    · exact .pure trivial
  refine boundary.bind fun _ => ?_
  refine (reads.counterOperand _).bind fun word? => ?_
  cases word? with
  | none => exact .pure trivial
  | some word =>
    refine .bindGet (fun alike => by rw [alike.section_eq counter same]) fun context => ?_
    split
    · exact reads.error _
    · exact (moved word).bind fun _ => reads.defineWordLabel _

variable (places : Places regard V image)

include places

theorem Places.reserveCount (fields : Fields) : regard.Keeps (reserveCount fields) := by
  refine places.forceWordBoundary.bind fun _ => ?_
  refine (places.defineWordLabel _).bind fun _ => ?_
  refine (places.absoluteOperand _).bind fun words? => ?_
  cases words? with
  | none => exact .pure trivial
  | some words =>
    dsimp only
    split
    · exact (places.error _).bind fun _ => .pure trivial
    · exact .pure trivial

theorem Places.reserveWords (fields : Fields) : regard.Keeps (reserveWords fields) := by
  refine (places.reserveCount fields).bind fun words? => ?_
  cases words? with
  | none => exact .pure trivial
  | some words => exact places.reserveBits _

theorem Places.reserveZeros (fields : Fields) : regard.Keeps (reserveZeros fields) := by
  refine (places.reserveCount fields).bind fun words? => ?_
  cases words? with
  | none => exact .pure trivial
  | some words => exact Regard.Keeps.repeatTimes (places.emitBits 0 (Nat.le_refl _)) words

theorem Places.align (fields : Fields) : regard.Keeps (align fields) := by
  refine (places.noOperand fields).bind fun _ => ?_
  refine .bindGet (fun alike => by rw [alike.type]) fun context => ?_
  dsimp only
  split
  · refine places.forceParcelBoundary.bind fun _ => ?_
    refine .bindGet (fun alike => by rw [alike.locationParcel]) fun context => ?_
    refine (Regard.Keeps.repeatTimes (places.emitBits _ (by decide)) _).bind fun _ => ?_
    exact places.defineWordLabel _
  · refine places.forceWordBoundary.bind fun _ => ?_
    refine .bindGet (fun alike => by rw [alike.locationWord]) fun context => ?_
    refine (Regard.Keeps.repeatTimes (places.emitBits 0 (Nat.le_refl _)) _).bind fun _ => ?_
    exact places.defineWordLabel _

theorem Places.reachBit (fields : Fields) {size : Nat} (narrow : size ≤ wordBits)
    {current : Section → Nat} (same : ∀ sec : Section, current sec.bare = current sec)
    {boundary : AsmM Unit} (kept : regard.Keeps boundary) :
    regard.Keeps (reachBit fields size current boundary) := by
  refine (places.ignoreLocation fields).bind fun _ => ?_
  refine (places.absoluteOperand _).bind fun bit? => ?_
  cases bit? with
  | none => exact .pure trivial
  | some bit =>
    dsimp only
    split
    · exact kept
    split
    case isTrue inside =>
      refine .bindGet (fun alike => by rw [alike.section_eq current same]) fun context => ?_
      split
      · exact places.emitBits 0 (Nat.le_trans (bitsAhead_le inside) narrow)
      · exact .pure trivial
    case isFalse => exact places.error _

theorem Places.reachWordBit (fields : Fields) : regard.Keeps (reachWordBit fields) :=
  places.reachBit fields (Nat.le_refl _) (fun _ => rfl) places.forceWordBoundary

theorem Places.reachParcelBit (fields : Fields) : regard.Keeps (reachParcelBit fields) :=
  places.reachBit fields (by decide) (fun _ => rfl) places.forceParcelBoundary

end Counters

/-- Sections may be changed in any way. -/
theorem Reads.places {regard : Regard} (reads : Reads regard fun _ => True)
    (moved : ∀ change, regard.Keeps (modifySection change)) :
    Places regard (fun _ => True) True where
  toReads := reads
  atImage same each := .bindGet same fun context => each context fun _ => trivial
  emitBits bits _ := reads.toSees.emitBits moved reads.note _ bits
  reference _ _ _ bits _ _ _ _ _ :=
    (reads.toSees.recordReference moved reads.note _ _ _ _).bind fun _ =>
      reads.toSees.emitBits moved reads.note _ bits
  reserveBits _ := moved _
  setLocation _ := reads.move (fun _ => rfl) (reads.toSees.emitBits moved reads.note) fun _ => moved _
  setOrigin _ := reads.move (fun _ => rfl) (reads.toSees.emitBits moved reads.note) fun _ => moved _

end Asm

end CrayAssembler
