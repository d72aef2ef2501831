import CrayAssembler.Proofs.Assembly.Opening
import CrayAssembler.Proofs.Assembly.Twin

namespace CrayAssembler

open Matcher (Arg)
open InstructionSet (Encoding)
open Eval (tree)

/-- The name that a statement can use for what a name in its operand means: the label of the statement
is a symbol of the current qualifier. -/
def Context.meant (context : Context) (location : String) (name : Name) : Name :=
  if location ≠ "" ∧ Asm.Means context location name then
    ⟨some context.qualifier.current, location⟩
  else name

namespace Matcher.Arg

/-- Names in an argument of an instruction, in literals too. -/
def names : Arg → List Name
  | register _ => []
  | expression expr => expr.names

/-- Texts of the literals in an argument of an instruction, in other literals too. -/
def literals : Arg → List String
  | register _ => []
  | expression expr => expr.literals

end Matcher.Arg

namespace SymbolTable

variable {old new : Value}

/-- In pass 2 a symbol is defined once. -/
theorem conflicts_of_seen (seen : Asm.definedInPass old .two = true) :
    conflicts old new false .two = true := by
  unfold conflicts
  rcases Bool.or_eq_true_iff.mp seen with external | again
  · rw [external, Bool.true_or]
  · dsimp only
    rw [if_pos again]
    exact Bool.or_true _

/-- In pass 1 a symbol without a value can be defined. -/
theorem free_of_unknown (proper : old.Proper) (unknown : old.isUndefined = true) :
    ¬ conflicts old new false .one = true := by
  have internal : old.isExternal = false := eq_false_of_ne_true fun external => by
    exact Bool.false_ne_true ((proper.defined external).symm.trans unknown)
  unfold conflicts
  rw [internal, unknown]
  exact Bool.false_ne_true

end SymbolTable

namespace Asm

/-- A statement is assembled in both passes under the same settings and at the same place of a module
that is relocatable. -/
structure Meeting (one two : Context) : Prop where
  first : one.pass = .one
  second : two.pass = .two
  settings : two.settings = one.settings
  base : two.base.current = one.base.current
  qualifier : two.qualifier.current = one.qualifier.current
  current : two.sectionId.current = one.sectionId.current
  type : two.currentSection.type = one.currentSection.type
  location : two.currentSection.locationBits = one.currentSection.locationBits
  origin : two.currentSection.originBits = one.currentSection.originBits
  relocatable : one.relocatable = true ∧ two.relocatable = true

section Labels

variable {one two : Context} {location : String} {name : Name}

theorem originOffset_of_formed {module : Module} (formed : module.Formed)
    (relocatable : module.absolute = false) (id : SectionId) :
    (module.getSection id).originOffset = 0 := by
  unfold Module.getSection
  rw [List.getD_eq_getElem?_getD]
  cases found : module.sections[id]? with
  | none => rfl
  | some sec => exact formed.offsets relocatable sec (List.mem_of_getElem? found)

theorem literalAddress_of_formed {module : Module} (formed : module.Formed)
    (relocatable : module.absolute = false) (place : Nat) :
    literalAddress module place = { Value.address .word literalsSection (UInt64.ofNat place) true with
      attributes := { (Value.address .word literalsSection (UInt64.ofNat place) true).attributes with
        literal := true } } := by
  unfold literalAddress
  rw [originOffset_of_formed formed relocatable, Nat.zero_add, relocatable]
  rfl

theorem Recognised.of_same {later after : Context} {other : Name} (recognised : Recognised one two name)
    (first : later.lookup other = one.lookup name) (second : after.lookup other = two.lookup name)
    (passes : later.pass = one.pass ∧ after.pass = two.pass) : Recognised later after other := by
  unfold Recognised at recognised ⊢
  rw [first, second, passes.1, passes.2]
  exact recognised

theorem lookup_opened_empty (context : Context) (name : Name) :
    (context.opened "").lookup name = context.lookup name := by
  rw [lookup_opened, symbols_opened_empty]
  rfl

variable (meeting : Meeting one two)

include meeting

theorem Meeting.absolute :
    one.currentModule.absolute = false ∧ two.currentModule.absolute = false :=
  meeting.relocatable.imp (Bool.not_eq_true' _).mp (Bool.not_eq_true' _).mp

theorem Meeting.gap (size : Nat) :
    two.currentSection.gap size = one.currentSection.gap size := by
  unfold Section.gap
  rw [meeting.location]

/-- The counters agree wherever both have come as far. -/
theorem Meeting.counter {later after : Context} {bits : Nat} (first : Advanced bits one later)
    (second : Advanced bits two after) (here : Beside one later) (there : Beside two after)
    (place : Counter) : after.counterValue place = later.counterValue place := by
  refine Context.counterValue_congr ?_ ?_ ?_ ?_ place
  · rw [there.sectionId, here.sectionId, meeting.current]
  · rw [second.location, first.location, meeting.location]
  · rw [second.origin, first.origin, meeting.origin]
  · rw [there.absolute, here.absolute, meeting.absolute.1, meeting.absolute.2]

variable (formed : one.Formed ∧ two.Formed)

include formed

/-- Both have come as far when the operand is read. -/
theorem Meeting.advanced_opened (location : String) :
    Advanced (one.currentSection.gap parcelBits) one (one.opened location) ∧
      Advanced (one.currentSection.gap parcelBits) two (two.opened location) :=
  ⟨Asm.advanced_opened formed.1.seated location,
    meeting.gap parcelBits ▸ Asm.advanced_opened formed.2.seated location⟩

/-- The label means the same address in both passes. -/
theorem Meeting.recognised_label (identifier : Fields.isIdentifier location)
    (quiet : ¬ Faulty (two.opened location)) (means : Means one location name)
    (recognised : Recognised one two ⟨some one.qualifier.current, location⟩) :
    Recognised (one.opened location) (two.opened location) name := by
  have accepted : ¬ LabelRefused two location := by
    rcases symbols_opened formed.2.seated identifier with ⟨-, -, faulty⟩ | ⟨accepted, -⟩
    · exact absurd faulty quiet
    · exact accepted
  have unknown : (one.lookup ⟨some one.qualifier.current, location⟩).isUndefined = true := by
    rcases recognised with ⟨-, seen, -⟩ | ⟨unknown, -⟩
    · rw [meeting.second] at seen
      unfold LabelRefused at accepted
      rw [meeting.second, meeting.qualifier] at accepted
      exact absurd (SymbolTable.conflicts_of_seen seen) accepted
    · exact unknown
  have free : ¬ LabelRefused one location := by
    unfold LabelRefused
    rw [meeting.first]
    exact SymbolTable.free_of_unknown (formed.1.module.symbols _) unknown
  have means' : Means two location name := by
    unfold Means
    rw [meeting.qualifier]
    exact means
  have counter := meeting.counter (advanced_aligned formed.1.seated)
    (meeting.gap parcelBits ▸ advanced_aligned formed.2.seated) (beside_aligned one)
    (beside_aligned two) .parcel
  have advanced := meeting.advanced_opened formed location
  obtain ⟨entry, first⟩ := lookup_opened_label formed.1.seated identifier free means
  obtain ⟨entry', second⟩ := lookup_opened_label formed.2.seated identifier accepted means'
  left
  rw [first, second, advanced.1.pass, advanced.2.pass, counter, meeting.first, meeting.second]
  refine ⟨rfl, rfl, ?_⟩
  exact Value.same_trans (Value.held_same ..) (Value.same_symm (Value.held_same ..))

/-- What is known of the names in an operand is known when it is read. -/
theorem Meeting.recognised (quiet : ¬ Faulty (two.opened location))
    (recognised : Recognised one two (one.meant location name)) :
    Recognised (one.opened location) (two.opened location) name := by
  have passes := (meeting.advanced_opened formed location).imp (·.pass) (·.pass)
  unfold Context.meant at recognised
  rcases identifier_of_quiet quiet with rfl | identifier
  · rw [if_neg fun label => label.1 rfl] at recognised
    exact recognised.of_same (lookup_opened_empty one name) (lookup_opened_empty two name) passes
  · split at recognised
    case isTrue label =>
      exact meeting.recognised_label formed identifier quiet label.2 recognised
    case isFalse other =>
      have named : location ≠ "" := by
        rintro rfl
        nomatch identifier
      have apart : ¬ Means one location name := fun means => other ⟨named, means⟩
      refine recognised.of_same (lookup_opened_of_ne formed.1.seated identifier apart)
        (lookup_opened_of_ne formed.2.seated identifier ?_) passes
      unfold Means
      rw [meeting.qualifier]
      exact apart

/-- An operand is read in both passes. -/
theorem Meeting.twin (quiet : ¬ Faulty (two.opened location)) :
    Twin (fun name => Recognised one two (one.meant location name)) (one.opened location)
      (two.opened location) where
  first := (meeting.advanced_opened formed location).1.pass.trans meeting.first
  second := (meeting.advanced_opened formed location).2.pass.trans meeting.second
  seated := (meeting.advanced_opened formed location).imp (·.seated) (·.seated)
  radix := by
    rw [(beside_opened two location).base, (beside_opened one location).base, meeting.base]
    rfl
  counter := meeting.counter (meeting.advanced_opened formed location).1
    (meeting.advanced_opened formed location).2 (beside_opened one location)
    (beside_opened two location)
  pool place := by
    rw [literalAddress_of_formed (formed_opened formed.2 location).module
        ((beside_opened two location).absolute.trans meeting.absolute.2),
      literalAddress_of_formed (formed_opened formed.1 location).module
        ((beside_opened one location).absolute.trans meeting.absolute.1)]
  formed name := ((formed_opened formed.2 location).module.symbols _).toWellFormed
  recognised name recognised := meeting.recognised formed quiet recognised

end Labels

section Operands

variable {context here there : Context} {expr : Expr} {value : Value}

/-- Placing code does not touch the pool of literals. -/
theorem spared_literals (pool : LiteralPool) :
    Spared fun context => context.currentModule.literals = pool where
  modifySection change := .modify fun context same =>
    (Context.currentModule_congr_section (fun _ _ _ => rfl) context change).trans same
  note _ := .modify fun _ same => same
  showGenerated text := by
    refine Gives.bindGet fun context _ => ?_
    split
    · exact Keeps.modify fun _ same => same
    · exact .pure trivial

theorem evaluation_of_outcome (found : (outcome (tree surroundings expr) ({}, context)).1 = .ok value) :
    ((operandValue (some expr)).run context).1 =
      ⟨value, (outcome (tree surroundings expr) ({}, context)).2.1.forward,
        (outcome (tree surroundings expr) ({}, context)).2.1.warnings⟩ := by
  unfold operandValue
  rw [StateT.run_bind, run_evaluateExpr, run_evaluate_tree, found]
  rfl

theorem literals_operandValue (expr : Expr) (context : Context) :
    ((operandValue (some expr)).run context).2.currentModule.literals =
      poolAfter (tree surroundings expr) ({}, context) := by
  unfold operandValue
  rw [StateT.run_bind, run_evaluateExpr, run_evaluate_tree]
  unfold poolAfter
  generalize outcome (tree surroundings expr) ({}, context) = result
  obtain ⟨kind | found, progress, later⟩ := result
  · rfl
  · have warned : ((progress.warnings.forM warn).run later).2.currentModule.literals =
        later.currentModule.literals :=
      (Keeps.forM (fun kind _ => (spared_literals later.currentModule.literals).note (.warning kind))
        later rfl).1
    dsimp only [Except.map]
    split
    · exact warned
    · exact warned

/-- Only numbers that are known in both passes are small. -/
theorem Seen.small {other : Value} {ahead later : Bool} (seen : Seen other ahead value later) :
    (other.isConstant && !ahead && decide (other.numeric < 64)) =
      (value.isConstant && !later && decide (value.numeric < 64)) := by
  cases seen with
  | known => rfl
  | ahead _ unseen =>
    rw [Bool.not_true, Bool.and_false, Bool.false_and]
    rcases unseen with rfl | external
    · rw [Bool.not_true, Bool.and_false, Bool.false_and]
    · have moving : value.isConstant = false := by
        refine eq_false_of_ne_true fun constant => ?_
        exact Bool.false_ne_true ((Value.isConstant_iff.mp constant).1.2.1.symm.trans external)
      rw [moving, Bool.false_and, Bool.false_and]

/-- An operand has a value if it draws no error. -/
theorem known_of_quiet (quiet : ¬ Faulty ((operandValue (some expr)).run context).2) :
    ∃ value, (outcome (tree surroundings expr) ({}, context)).1 = .ok value ∧
      value.isUndefined = false := by
  obtain ⟨value, later, found, defined⟩ := defined_of_quiet quiet
  rw [Eval.run_steps] at found
  exact ⟨value, congrArg Prod.fst found, defined⟩

variable {names : Name → Prop} {keys : String → Prop} {one two : LiteralPool}

/-- A load of an A register takes the same in both passes. -/
theorem Twin.loadABits (twin : Twin names here there) (same : SamePlaces keys one two)
    (known : ∀ name ∈ expr.names, names name) (among : ∀ key ∈ expr.literals, keys key)
    (first : ((operandValue (some expr)).run here).2.currentModule.literals = one)
    (second : ((operandValue (some expr)).run there).2.currentModule.literals = two)
    (quiet : ¬ Faulty ((operandValue (some expr)).run there).2) :
    Encoding.loadABits here (some expr) = Encoding.loadABits there (some expr) := by
  rw [literals_operandValue] at first second
  have shadows : Shadows names one two expr := shadows_tree same known among
  obtain ⟨value, found, defined⟩ := known_of_quiet quiet
  obtain ⟨-, other, ahead, later, foundHere, seen, forward, forwardThere⟩ :=
    @shadows ({}, here) ({}, there) value twin (first ▸ .refl _) (second ▸ .refl _) found defined
  have ahead_eq := forward.trans (Bool.false_or ahead)
  have later_eq := forwardThere.trans (Bool.false_or later)
  unfold Encoding.loadABits
  rw [evaluation_of_outcome foundHere, evaluation_of_outcome found]
  dsimp only
  rw [ahead_eq, later_eq, seen.small]

end Operands

section Instructions

variable {context one two : Context} {fields : Fields} {found : Matcher.Found InstructionSet.Rule}
  {args : List Arg} {expr : Expr} {location : String}

theorem consults_faulty : Consults (.keeping Faulty) (fun _ => True) False := by
  refine consults_keeping spared_faulty.note (fun name context faulty => ?_)
    fun key words undefined context faulty => ?_
  · rw [run_symbol]
    exact ⟨faulty, trivial⟩
  · rw [run_placeLiteral]
    exact ⟨faulty, trivial⟩

theorem mem_of_expressionArg? {n : Nat} (operand : expressionArg? args n = some expr) :
    .expression expr ∈ args := by
  unfold expressionArg? at operand
  split at operand
  case h_1 other known =>
    cases operand
    exact List.mem_of_getElem? known
  case h_2 => cases operand

theorem encode_loadA {first second : Nat} (operand : expressionArg? args second = some expr)
    (plain : isLiteral expr = false) :
    encode (.loadA first second) args =
      operandValue (some expr) >>= emitLoadA (registerArg args first) := by
  have other : ¬ isLiteral expr = true := Bool.eq_false_iff.mp plain
  simp only [encode, operand, Option.any_some, if_neg other]

theorem loadABits_none (context : Context) : Encoding.loadABits context none = 2 * parcelBits :=
  rfl

theorem loadABits_literal (literal : isLiteral expr = true) (context : Context) :
    Encoding.loadABits context (some expr) = 2 * parcelBits :=
  if_pos literal

/-- Only loads of A registers depend on the context for their length. -/
theorem bits_of_loadABits {encoding : Encoding} {here there : Context}
    (loads : ∀ i value, encoding = .loadA i value →
      Encoding.loadABits here (expressionArg? args value) =
        Encoding.loadABits there (expressionArg? args value)) :
    encoding.bits here args = encoding.bits there args := by
  cases encoding with
  | loadA i value => exact loads i value rfl
  | _ => rfl

/-- Without an error there is an instruction where one may stand. -/
theorem placed_of_quiet (quiet : ¬ Faulty ((machineInstruction fields).run context).2) :
    ∃ found, context.instruction? fields = some found ∧
      context.currentSection.type.allowsInstructions = true ∧
      ∀ pair ∈ found.handler.same,
        registerArg found.args pair.1 = registerArg found.args pair.2 := by
  unfold Context.instruction?
  unfold machineInstruction at quiet
  rw [StateT.run_bind, StateT.run_get, pure_bind] at quiet
  dsimp only at quiet ⊢
  generalize InstructionSet.table.find _ _ _ = result at quiet ⊢
  match result with
  | .error .noMatch => exact absurd (hasErrors_error _ _) quiet
  | .error (.badExpression _) => exact absurd (hasErrors_error _ _) quiet
  | .ok found =>
    refine ⟨found, rfl, ?_⟩
    dsimp only at quiet
    split at quiet
    case isFalse => exact absurd (hasErrors_error _ _) quiet
    case isTrue allowed =>
      refine ⟨allowed, ?_⟩
      unfold placeInstruction at quiet
      dsimp only at quiet
      split at quiet
      case isFalse => exact absurd (hasErrors_error _ _) quiet
      case isTrue agree =>
        exact fun pair member => of_decide_eq_true ((Option.all_eq_true ..).mp agree pair member)

/-- What is left of an instruction once it is encoded. -/
theorem encoded_of_placed (known : context.instruction? fields = some found)
    (allowed : context.currentSection.type.allowsInstructions = true)
    (same : ∀ pair ∈ found.handler.same,
      registerArg found.args pair.1 = registerArg found.args pair.2) :
    ((machineInstruction fields).run context).2.statement =
        ((encode found.handler.encoding found.args).run (context.opened fields.location)).2.statement ∧
      ((machineInstruction fields).run context).2.currentModule =
        ((encode found.handler.encoding found.args).run
          (context.opened fields.location)).2.currentModule := by
  rw [run_machineInstruction known allowed same]
  exact ⟨rfl, rfl⟩

/-- What is known in both passes of the operands of an instruction: its names are recognised, and in
the end its literals have the same places in both pools. -/
structure Agreed (one two : Context) (fields : Fields) (args : List Arg) : Prop where
  names : ∀ name ∈ args.flatMap Arg.names, Recognised one two (one.meant fields.location name)
  literals : SamePlaces (· ∈ args.flatMap Arg.literals)
    ((machineInstruction fields).run one).2.currentModule.literals
    ((machineInstruction fields).run two).2.currentModule.literals

variable (meeting : Meeting one two)

include meeting

theorem Meeting.instruction? (fields : Fields) :
    two.instruction? fields = one.instruction? fields := by
  unfold Context.instruction?
  rw [meeting.settings]

theorem Meeting.itemsBits (words : Settings → String → Nat) (fields : Fields) :
    itemsBits words two fields = itemsBits words one fields := by
  unfold Asm.itemsBits
  rw [meeting.type, meeting.gap, meeting.settings]

variable (formed : one.Formed ∧ two.Formed)

include formed

/-- A load of an A register that is not told to be one of memory. -/
theorem Meeting.loadABits {i value : Nat} (operand : expressionArg? args value = some expr)
    (plain : isLiteral expr = false)
    (agreed : ∀ name ∈ expr.names, Recognised one two (one.meant location name))
    (literals : SamePlaces (· ∈ expr.literals)
      ((encode (.loadA i value) args).run (one.opened location)).2.currentModule.literals
      ((encode (.loadA i value) args).run (two.opened location)).2.currentModule.literals)
    (quiet : ¬ Faulty ((encode (.loadA i value) args).run (two.opened location)).2) :
    Encoding.loadABits (one.opened location) (some expr) =
      Encoding.loadABits (two.opened location) (some expr) := by
  have placed : encode (.loadA i value) args =
      operandValue (some expr) >>= emitLoadA (registerArg args i) := encode_loadA operand plain
  have read : ¬ Faulty ((operandValue (some expr)).run (two.opened location)).2 := fun faulty =>
    quiet (placed ▸ (spared_faulty.emitLoadA _ _ _ faulty).1)
  have opened : ¬ Faulty (two.opened location) := fun faulty =>
    read ((consults_faulty.operandValue nofun) _ faulty).1
  have pool (context : Context) : ((encode (.loadA i value) args).run context).2.currentModule.literals =
      ((operandValue (some expr)).run context).2.currentModule.literals := by
    rw [placed]
    exact ((spared_literals _).emitLoadA _ _ _ rfl).1
  rw [pool, pool] at literals
  exact (meeting.twin formed opened).loadABits literals agreed (fun _ member => member) rfl rfl read

/-- The length of an instruction is the same in both passes. -/
theorem Meeting.bits (agreed : Agreed one two fields found.args)
    (first : one.instruction? fields = some found)
    (allowed : two.currentSection.type.allowsInstructions = true)
    (same : ∀ pair ∈ found.handler.same,
      registerArg found.args pair.1 = registerArg found.args pair.2)
    (quiet : ¬ Faulty ((machineInstruction fields).run two).2) :
    found.handler.encoding.bits (one.opened fields.location) found.args =
      found.handler.encoding.bits (two.opened fields.location) found.args := by
  have second := (meeting.instruction? fields).trans first
  have encoded := encoded_of_placed first (meeting.type ▸ allowed) same
  have encoded' := encoded_of_placed second allowed same
  have literals := agreed.literals
  unfold Faulty at quiet
  rw [encoded.2, encoded'.2] at literals
  rw [encoded'.1] at quiet
  refine bits_of_loadABits fun i value encoding => ?_
  rw [encoding] at literals quiet
  cases operand : expressionArg? found.args value with
  | none => rw [loadABits_none, loadABits_none]
  | some expr =>
    by_cases literal : isLiteral expr = true
    · rw [loadABits_literal literal, loadABits_literal literal]
    · have member := mem_of_expressionArg? operand
      exact meeting.loadABits formed operand (eq_false_of_ne_true literal)
        (fun name among => agreed.names name (List.mem_flatMap_of_mem member among))
        (fun key among => literals key (List.mem_flatMap_of_mem member among)) quiet

end Instructions

/-- Both counters move as far in both contexts. -/
def AdvanceAlike (one two : Context) {α : Type} (action : AsmM α) : Prop :=
  ∃ bits, Advances bits one action ∧ Advances bits two action

/-- In a relocatable module a statement moves both counters of its section as far in pass 1 as in
pass 2. Data does so in any case, and a machine instruction that draws no error in pass 2 does if its
names are known in both passes with one value, or are not known in pass 1 and ahead or external in
pass 2, and its literals have the same places in both pools. This is so in all contexts that are
formed, and those in which a statement is assembled are. -/
theorem advance_alike :
    (∀ context, Occurs context → context.Formed) ∧
      ∀ {one two : Context} (fields : Fields), one.Formed → two.Formed → Meeting one two →
        AdvanceAlike one two (constants fields) ∧ AdvanceAlike one two (data fields) ∧
          ((∀ found, one.instruction? fields = some found → Agreed one two fields found.args) →
            ((machineInstruction fields).run two).2.statement.diagnostics.hasErrors = false →
            AdvanceAlike one two (machineInstruction fields)) := by
  refine ⟨fun context occurs => occurs.formed, fun {one two} fields formed formed' meeting => ?_⟩
  refine ⟨⟨_, advances_constants formed.seated fields, ?_⟩,
    ⟨_, advances_data formed.seated fields, ?_⟩, fun agreed errorless => ?_⟩
  · rw [← meeting.itemsBits]
    exact advances_constants formed'.seated fields
  · rw [← meeting.itemsBits]
    exact advances_data formed'.seated fields
  · have quiet : ¬ Faulty ((machineInstruction fields).run two).2 := Bool.eq_false_iff.mp errorless
    obtain ⟨found, second, allowed, same⟩ := placed_of_quiet quiet
    have first := (meeting.instruction? fields).symm.trans second
    have sized := meeting.bits ⟨formed, formed'⟩ (agreed found first) first allowed same quiet
    refine ⟨_, advances_machineInstruction formed.seated first (meeting.type ▸ allowed) same, ?_⟩
    rw [sized, ← meeting.gap]
    exact advances_machineInstruction formed'.seated second allowed same

instance (one two : Context) (name : Name) : Decidable (Recognised one two name) :=
  inferInstanceAs (Decidable (_ ∨ _))

instance (one two : Context) : Decidable (Meeting one two) :=
  decidable_of_iff ((one.pass = .one ∧ two.pass = .two ∧ two.settings = one.settings) ∧
      (two.base.current = one.base.current ∧ two.qualifier.current = one.qualifier.current ∧
        two.sectionId.current = one.sectionId.current) ∧
      (two.currentSection.type = one.currentSection.type ∧
        two.currentSection.locationBits = one.currentSection.locationBits ∧
        two.currentSection.originBits = one.currentSection.originBits) ∧
      one.relocatable = true ∧ two.relocatable = true)
    ⟨fun ⟨⟨first, second, settings⟩, ⟨base, qualifier, current⟩, ⟨type, location, origin⟩, both⟩ =>
        ⟨first, second, settings, base, qualifier, current, type, location, origin, both⟩,
      fun ⟨first, second, settings, base, qualifier, current, type, location, origin, both⟩ =>
        ⟨⟨first, second, settings⟩, ⟨base, qualifier, current⟩, ⟨type, location, origin⟩, both⟩⟩

/-- What is loaded is defined further on and added to the address of a literal. -/
def aheadLines : List SourceLine :=
  [⟨1, "         IDENT    M", false⟩, ⟨2, "L        A1       X+=5", false⟩,
    ⟨3, "X        =        5", false⟩, ⟨4, "         END", false⟩]

def aheadLoad : Fields := ⟨"L", "A1", "X+=5", 18⟩

/-- Where the load is assembled in pass 1. -/
def aheadOne : Context := Assembly.passOneAfter (aheadLines.take 1) "MAIN" {} ⟨"", "", ""⟩

/-- Where it is assembled in pass 2. -/
def aheadTwo : Context := Assembly.passTwoAfter aheadLines "MAIN" {} ⟨"", "", ""⟩ 1

/-- What is read off the load, all at once because building the table of instructions takes long. -/
theorem ahead_checked :
    Meeting aheadOne aheadTwo ∧ ((aheadOne.instruction? aheadLoad).any fun found =>
      found.args = [.register 1, .expression (.binary .add (.symbol ⟨none, "X"⟩)
        (.literal "5" (.number "5")))]) = true ∧
      (∀ name ∈ [(⟨none, "X"⟩ : Name)],
        Recognised aheadOne aheadTwo (aheadOne.meant aheadLoad.location name)) ∧
      (∀ key ∈ ["5"], ((machineInstruction aheadLoad).run aheadTwo).2.currentModule.literals.offset key =
        ((machineInstruction aheadLoad).run aheadOne).2.currentModule.literals.offset key) ∧
      ((machineInstruction aheadLoad).run aheadTwo).2.statement.diagnostics.hasErrors = false := by
  decide +kernel

/-- The load takes the same in both passes. -/
theorem advance_alike_ahead : AdvanceAlike aheadOne aheadTwo (machineInstruction aheadLoad) := by
  obtain ⟨meeting, operand, names, literals, quiet⟩ := ahead_checked
  have formed : aheadOne.Formed := advance_alike.1 aheadOne (occurs_passOneAfter ..)
  have formed' : aheadTwo.Formed := advance_alike.1 aheadTwo (occurs_passTwoAfter ..)
  refine (advance_alike.2 aheadLoad formed formed' meeting).2.2 (fun found known => ?_) quiet
  rw [known] at operand
  have args : found.args = _ := of_decide_eq_true operand
  rw [args]
  exact ⟨names, literals⟩

end Asm

end CrayAssembler
