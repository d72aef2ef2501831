import CrayAssembler.Assembly.Directive.Data
import CrayAssembler.Proofs.Assembly.Emission
import Mathlib.Algebra.GroupWithZero.Nat

namespace CrayAssembler

namespace Asm

open Instruction (Code)

/-- The counters of the current section have come so many bits further. -/
structure Advanced (bits : Nat) (context later : Context) : Prop where
  seated : Seated later
  settings : later.settings = context.settings
  pass : later.pass = context.pass
  type : later.currentSection.type = context.currentSection.type
  location : later.currentSection.locationBits = context.currentSection.locationBits + bits
  origin : later.currentSection.originBits = context.currentSection.originBits + bits

variable {context middle later : Context} {bits more : Nat}

theorem Advanced.trans (first : Advanced bits context middle) (second : Advanced more middle later) :
    Advanced (bits + more) context later where
  seated := second.seated
  settings := second.settings.trans first.settings
  pass := second.pass.trans first.pass
  type := second.type.trans first.type
  location := by rw [second.location, first.location, Nat.add_assoc]
  origin := by rw [second.origin, first.origin, Nat.add_assoc]

theorem Poised.advanced (poised : Poised context later) (seated : Seated context) :
    Advanced 0 context later :=
  ⟨poised.seated seated, poised.settings, poised.pass, poised.type, poised.location, poised.origin⟩

theorem Advanced.poised (advanced : Advanced bits context middle) (poised : Poised middle later) :
    Advanced bits context later :=
  advanced.trans (poised.advanced advanced.seated)

theorem Advanced.after (poised : Poised context middle) (seated : Seated context)
    (advanced : Advanced bits middle later) : Advanced bits context later := by
  have both := (poised.advanced seated).trans advanced
  rwa [Nat.zero_add] at both

/-- An action moves both counters so many bits on. -/
def Advances (bits : Nat) (context : Context) {α : Type} (action : AsmM α) : Prop :=
  Advanced bits context (action.run context).2

section Placing

variable {α β : Type} {action : AsmM α} {rest : α → AsmM β}

theorem Advances.bind (first : Advances bits context action)
    (second : Advances more (action.run context).2 (rest (action.run context).1)) :
    Advances (bits + more) context (action >>= rest) :=
  Advanced.trans first second

/-- Nothing is placed first. -/
theorem Advances.after (seated : Seated context) (poised : Poised context (action.run context).2)
    (second : Seated (action.run context).2 →
      Advances bits (action.run context).2 (rest (action.run context).1)) :
    Advances bits context (action >>= rest) :=
  Advanced.after poised seated (second (poised.seated seated))

/-- Nothing is placed afterwards. -/
theorem Advances.before (first : Advances bits context action)
    (poised : Poised (action.run context).2 ((rest (action.run context).1).run
      (action.run context).2).2) : Advances bits context (action >>= rest) :=
  Advanced.poised first poised

variable (seated : Seated context)

include seated

theorem advanced_advance (width : Nat) (change : Section → ObjectBlock) :
    Advanced width context
      (context.modifySection fun sec => { sec with block := change sec }.advance width) := by
  have current := currentSection_modify context
    fun sec => { sec with block := change sec }.advance width
  rw [if_pos seated] at current
  refine ⟨seated.modifySection _, rfl, rfl, ?_, ?_, ?_⟩
  all_goals
    rw [current]
    unfold Section.advance
    split <;> simp_all

theorem advances_emitBits (width : Nat) (bits : Word) :
    Advances width context (emitBits width bits) := by
  unfold Advances emitBits
  rw [StateT.run_bind, StateT.run_get, pure_bind]
  dsimp only
  split
  case h_1 block _ => exact advanced_advance seated width fun _ => block
  case h_2 kind _ =>
    exact (advanced_advance seated width fun sec => sec.block).poised (.register ..)

theorem advances_showGenerated (text : String) : Advances 0 context (showGenerated text) := by
  unfold Advances showGenerated
  rw [StateT.run_bind, StateT.run_get, pure_bind]
  dsimp only
  split
  · exact ⟨seated, rfl, rfl, rfl, rfl, rfl⟩
  · exact ⟨seated, rfl, rfl, rfl, rfl, rfl⟩

/-- Bits are placed and shown. -/
theorem advances_emitShown (width : Nat) (bits : Word) (text : String) :
    Advances width context (do emitBits width bits; showGenerated text) := by
  have placed := advances_emitBits seated width bits
  have both : Advances (width + 0) context (do emitBits width bits; showGenerated text) :=
    placed.bind (advances_showGenerated placed.seated text)
  exact both

theorem advances_emitWord (word : Word) : Advances wordBits context (emitWord word) :=
  advances_emitShown seated _ _ _

theorem advances_emitField (width : Nat) (value : Value) :
    Advances width context (emitField width value) :=
  .after seated (poised_recordReference ..) fun seated => advances_emitShown seated _ _ _

theorem advances_placeCode (code : Code) : Advances code.bits context (placeCode code) := by
  cases code with
  | short parcel => exact advances_emitShown seated _ _ _
  | long pair =>
    exact .after seated (poised_recordReference ..) fun seated => advances_emitShown seated _ _ _

theorem Emits.advances {known : Code → Prop} {action : AsmM Unit} {size : Nat}
    (emits : Emits context action known) (sized : ∀ code, known code → code.bits = size) :
    Advances size context action := by
  obtain ⟨code, before, holds, poised, placed⟩ := emits
  unfold Advances
  rw [placed, ← sized code holds]
  exact .after poised seated (advances_placeCode (poised.seated seated) code)

end Placing

end Asm

/-- Bits up to the next multiple of `size`. -/
def Section.gap (sec : Section) (size : Nat) : Nat :=
  if sec.locationBits % size ≠ 0 then size - sec.locationBits % size else 0

namespace Asm

section Statements

variable (context : Context)

theorem advances_gap (seated : Seated context) (size : Nat) :
    Advances (context.currentSection.gap size) context
      (if context.currentSection.locationBits % size ≠ 0 then
        emitBits (size - context.currentSection.locationBits % size) 0 else return ()) := by
  unfold Section.gap
  split
  · exact advances_emitBits seated _ _
  · exact (Poised.refl context).advanced seated

theorem advances_forceParcelBoundary (seated : Seated context) :
    Advances (context.currentSection.gap parcelBits) context forceParcelBoundary :=
  advances_gap context seated parcelBits

theorem advances_forceWordBoundary (seated : Seated context) :
    Advances (context.currentSection.gap wordBits) context forceWordBoundary :=
  advances_gap context seated wordBits

theorem poised_defineSymbol (location : String) (value : Value) (redefinable : Bool) :
    Poised context ((defineSymbol location value redefinable).run context).2 := by
  refine (keeps_defineSymbol (I := Poised context) (fun kind => ?_) location (fun poised _ => ?_)
    context (.refl context)).1
  · exact .modify fun later poised => poised.trans (.register later _)
  · exact poised.trans (poised_of_shell (Context.shell_modifyModule _ fun _ => rfl))

theorem poised_defineLabel (location : String) (kind : AddressKind) (n : Nat) :
    Poised context ((defineLabel location kind n).run context).2 := by
  unfold defineLabel
  rw [StateT.run_bind, StateT.run_get, pure_bind]
  dsimp only
  have shown (address : Option String) : Poised context
      (context.modifyStatement fun statement => { statement with address }) :=
    ⟨rfl, rfl, rfl, rfl, rfl, rfl, id⟩
  exact (shown _).trans (poised_defineSymbol ..)

theorem poised_defineWordLabel (location : String) :
    Poised context ((defineWordLabel location).run context).2 := by
  unfold defineWordLabel
  rw [StateT.run_bind, StateT.run_get, pure_bind]
  exact poised_defineLabel context location .word context.currentSection.locationWord

theorem poised_defineParcelLabel (location : String) :
    Poised context ((defineParcelLabel location).run context).2 := by
  unfold defineParcelLabel
  rw [StateT.run_bind, StateT.run_get, pure_bind]
  exact poised_defineLabel context location .parcel context.currentSection.locationParcel

end Statements

section Items

/-- How many words an item of data takes: a character constant may take more than one. -/
def dataWords (settings : Settings) (item : String) : Nat :=
  match operandExpr? settings item with
  | some (.string constant) => constant.pack.length
  | _ => 1

/-- How many bits the items of a statement take where data is allowed, each so many words. -/
def itemsBits (words : Settings → String → Nat) (context : Context) (fields : Fields) : Nat :=
  if context.currentSection.type.allowsImage then
    context.currentSection.gap wordBits +
      ((Fields.subfields fields.operand).map (words context.settings)).sum * wordBits
  else 0

theorem run_parseOperand (text : String) (context : Context) :
    (parseOperand text).run context =
      match operandExpr? context.settings text with
      | some expr => (some expr, context)
      | none => (none, context.register (.error .syntaxError)) := by
  unfold parseOperand operandExpr?
  rw [StateT.run_bind, StateT.run_get, pure_bind]
  dsimp only
  split
  · rfl
  · cases Expr.parseComplete (tokenize text.toList context.settings.flexible) text.toList <;> rfl

variable {context : Context} (seated : Seated context)

include seated

theorem advances_emitExpression (expr : Expr) :
    Advances wordBits context (emitExpression expr) := by
  have stored (value : Value) : ∀ context, Poised context ((storable value).run context).2 := by
    intro context
    unfold storable
    split
    · exact .refl context
    split
    · exact .refl context
    · exact .register ..
  refine .after seated (poised_of_shell (consulted_evaluateExpr context expr).shell) fun seated => ?_
  exact .after seated (stored _ _) fun seated => advances_emitField seated _ _

theorem advances_emitItem (item : String) : Advances wordBits context (emitItem item) := by
  unfold emitItem Advances
  rw [StateT.run_bind, run_parseOperand]
  cases operandExpr? context.settings item with
  | none =>
    have failed : Seated (context.register (.error .syntaxError)) := seated
    exact .after (.register ..) seated (advances_emitWord failed 0)
  | some expr => exact advances_emitExpression seated expr

theorem advances_words (words : List Word) :
    Advances (words.length * wordBits) context (words.forM emitWord) := by
  induction words generalizing context with
  | nil => exact (Poised.refl context).advanced seated
  | cons word words ih =>
    have first := advances_emitWord seated word
    rw [List.length_cons, Nat.succ_mul, Nat.add_comm]
    exact first.bind (ih first.seated)

theorem advances_emitDataItem (item : String) :
    Advances (dataWords context.settings item * wordBits) context (emitDataItem item) := by
  unfold emitDataItem dataWords Advances
  rw [StateT.run_bind, run_parseOperand]
  cases operandExpr? context.settings item with
  | none =>
    have failed : Seated (context.register (.error .syntaxError)) := seated
    exact .after (.register ..) seated (advances_emitWord failed 0)
  | some expr =>
    cases expr with
    | string constant => exact advances_words seated constant.pack
    | _ => exact advances_emitExpression seated _

variable {words : Settings → String → Nat} {emit : String → AsmM Unit}
  (each : ∀ {context}, Seated context → ∀ item,
    Advances (words context.settings item * wordBits) context (emit item))

include each

theorem advances_forM (items : List String) :
    Advances ((items.map (words context.settings)).sum * wordBits) context (items.forM emit) := by
  induction items generalizing context with
  | nil => exact (Poised.refl context).advanced seated
  | cons item items ih =>
    have first := each seated item
    have rest := ih first.seated
    rw [first.settings] at rest
    rw [List.map_cons, List.sum_cons, Nat.add_mul]
    exact first.bind rest

theorem advances_emitItems (fields : Fields) :
    Advances (itemsBits words context fields) context (emitItems emit fields) := by
  unfold emitItems whereData itemsBits Advances
  rw [StateT.run_bind, StateT.run_get, pure_bind]
  dsimp only
  split
  case isTrue allowed =>
    have gap := advances_forceWordBoundary context seated
    have rest : Advances (((Fields.subfields fields.operand).map (words context.settings)).sum *
        wordBits) (forceWordBoundary.run context).2
        (defineWordLabel fields.location >>= fun _ => (Fields.subfields fields.operand).forM emit) := by
      have labelled := poised_defineWordLabel (forceWordBoundary.run context).2 fields.location
      refine .after gap.seated labelled fun seated => ?_
      rw [← gap.settings, ← labelled.settings]
      exact advances_forM seated each _
    exact gap.bind rest
  case isFalse => exact (Poised.register ..).advanced seated

end Items

theorem advances_constants {context : Context} (seated : Seated context) (fields : Fields) :
    Advances (itemsBits (fun _ _ => 1) context fields) context (constants fields) :=
  advances_emitItems seated (fun seated item => (Nat.one_mul wordBits).symm ▸
    advances_emitItem seated item) fields

theorem advances_data {context : Context} (seated : Seated context) (fields : Fields) :
    Advances (itemsBits dataWords context fields) context (data fields) :=
  advances_emitItems seated advances_emitDataItem fields

section Instructions

variable {context : Context} (seated : Seated context)

include seated

theorem advanced_opened (location : String) :
    Advanced (context.currentSection.gap parcelBits) context (context.opened location) := by
  have gap : Advances (context.currentSection.gap parcelBits) context
      (do forceParcelBoundary; defineParcelLabel location) :=
    (advances_forceParcelBoundary context seated).before (poised_defineParcelLabel ..)
  exact gap.poised ⟨rfl, rfl, rfl, rfl, rfl, rfl, id⟩

/-- An instruction takes what its encoding says, from the next parcel boundary on. -/
theorem advances_machineInstruction {fields : Fields} {found : Matcher.Found InstructionSet.Rule}
    (known : context.instruction? fields = some found)
    (allowed : context.currentSection.type.allowsInstructions = true)
    (same : ∀ pair ∈ found.handler.same,
      registerArg found.args pair.1 = registerArg found.args pair.2) :
    Advances (context.currentSection.gap parcelBits +
      found.handler.encoding.bits (context.opened fields.location) found.args) context
      (machineInstruction fields) := by
  obtain ⟨items, member, fits⟩ := Matcher.instance_of_find (find_of_instruction? known)
  have suited := InstructionSet.suited_of_agrees (InstructionSet.agrees_of_mem member) fits.suits
  have opened := advanced_opened seated fields.location
  have encoded := (emits_encode (context.opened fields.location) suited).advances opened.seated
    fun _ holds => holds.2
  unfold Advances
  rw [run_machineInstruction known allowed same]
  exact (opened.trans encoded).poised ⟨rfl, rfl, rfl, rfl, rfl, rfl, id⟩

end Instructions

end Asm

end CrayAssembler
