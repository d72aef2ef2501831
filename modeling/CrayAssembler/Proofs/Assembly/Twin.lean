import CrayAssembler.Proofs.Assembly.References
import CrayAssembler.Proofs.Assembly.Sizes
import CrayAssembler.Proofs.Expr.WellFormed

namespace CrayAssembler

namespace Expr

/-- Names in an expression, in literals too. -/
def names : Expr → List Name
  | symbol name => [name]
  | number _ | based _ | string _ | location _ => []
  | unary _ operand => operand.names
  | binary _ left right => left.names ++ right.names
  | group inner => inner.names
  | literal _ operand => operand.names

/-- Texts of the literals in an expression, in other literals too. -/
def literals : Expr → List String
  | symbol _ | number _ | based _ | string _ | location _ => []
  | unary _ operand => operand.literals
  | binary _ left right => left.literals ++ right.literals
  | group inner => inner.literals
  | literal key operand => key :: operand.literals

end Expr

namespace Context

variable {context later : Context}

theorem counterValue_of_shell (same : later.shell = context.shell) (place : Counter) :
    later.counterValue place = context.counterValue place := by
  have here := currentSection_of_shell same
  have absolute : later.currentModule.absolute = context.currentModule.absolute :=
    congrArg (·.absolute) (currentModule_of_shell same)
  have current : later.sectionId.current = context.sectionId.current :=
    congrArg (·.sectionId.current) same
  unfold counterValue Asm.counter relocatable
  simp only [StateT.run_bind, StateT.run_get, pure_bind, here, absolute, current]
  cases place <;> rfl

end Context

namespace Asm

open Eval (EvalM Progress tree)

section Outcomes

variable {α β : Type} {read : EvalM AsmM α} {next : α → EvalM AsmM β} {place : Place}

theorem outcome_bind_of {value : α} (known : (outcome read place).1 = .ok value) :
    outcome (read >>= next) place = outcome (next value) (outcome read place).2 := by
  rw [outcome_bind]
  generalize outcome read place = result at known ⊢
  obtain ⟨value?, later⟩ := result
  cases known
  rfl

theorem ok_of_outcome_bind {value : β} (known : (outcome (read >>= next) place).1 = .ok value) :
    ∃ first, (outcome read place).1 = .ok first := by
  rw [outcome_bind] at known
  generalize outcome read place = result at known ⊢
  obtain ⟨kind | first, later⟩ := result
  · nomatch known
  · exact ⟨first, rfl⟩

theorem outcome_evalUnary (op : UnaryOp) (value : Value) (place : Place) :
    outcome (Eval.unary op value) place = (Value.unary op value, place) := by
  unfold Eval.unary
  cases Value.unary op value <;> rfl

theorem outcome_evalBinary (op : BinaryOp) (left right : Value) (place : Place) :
    ∃ warnings, outcome (Eval.binary op left right) place =
      ((Value.binary op left right).map (·.value), { place.1 with warnings }, place.2) := by
  unfold Eval.binary
  cases Value.binary op left right with
  | error kind => exact ⟨place.1.warnings, rfl⟩
  | ok result =>
    obtain ⟨value, mixed⟩ := result
    cases mixed with
    | false => exact ⟨place.1.warnings, rfl⟩
    | true =>
      refine ⟨((if place.1.warnings.contains .expressionElement then place.1
        else { place.1 with warnings := place.1.warnings ++ [.expressionElement] }).warnings), ?_⟩
      change (_, (if _ then _ else _), _) = _
      split <;> rfl

theorem outcome_literal (key : String) (operand : LiteralOperand AsmM) (place : Place) :
    outcome (Eval.literal surroundings key operand) place =
      (((literal key operand).run place.2).1, place.1, ((literal key operand).run place.2).2) := by
  have asked : outcome (liftM (literal key operand) : EvalM AsmM _) place =
      (.ok ((literal key operand).run place.2).1, place.1, ((literal key operand).run place.2).2) :=
    rfl
  unfold Eval.literal
  change outcome (liftM (literal key operand) >>= _) place = _
  rw [outcome_bind_of (congrArg Prod.fst asked), asked]
  cases ((literal key operand).run place.2).1 <;> rfl

theorem tree_literalOperand (key : String) (operand : Expr) :
    tree surroundings (.literal key operand) =
      Eval.literal surroundings key (literalOperand operand) := by
  rw [Eval.tree_literal]
  cases operand <;> rfl

/-- A part of an evaluation that does nothing but consult. -/
def Inquires (read : EvalM AsmM α) : Prop :=
  ∀ place, Consulted place.2 (outcome read place).2.2

theorem Inquires.bind (first : Inquires read) (second : ∀ value, Inquires (next value)) :
    Inquires (read >>= next) := by
  intro place
  have before := first place
  rw [outcome_bind]
  generalize outcome read place = result at before ⊢
  obtain ⟨kind | value, later⟩ := result
  · exact before
  · exact before.trans (second value later)

theorem inquires_tree (expr : Expr) : Inquires (tree surroundings expr) := fun place =>
  ((consults_consulted place.2).tree nofun place.1 place.2 (.refl place.2)).1

theorem inquires_binary (op : BinaryOp) (left right : Value) : Inquires (Eval.binary op left right) := by
  intro place
  obtain ⟨warnings, same⟩ := outcome_evalBinary op left right place
  rw [same]
  exact .refl place.2

/-- The pool of literals as a part of an evaluation leaves it. -/
def poolAfter (read : EvalM AsmM α) (place : Place) : LiteralPool :=
  (outcome read place).2.2.currentModule.literals

theorem grown_bind (second : ∀ value, Inquires (next value)) (place : Place) :
    (poolAfter read place).Grown (poolAfter (read >>= next) place) := by
  unfold poolAfter
  rw [outcome_bind]
  generalize outcome read place = result
  obtain ⟨kind | value, later⟩ := result
  · exact .refl _
  · exact (second value later).literals

end Outcomes

section Twins

/-- A name is known in both contexts, with one value, or it is not known in the first one, which is of
pass 1, and ahead or external in the second one. -/
def Recognised (one two : Context) (name : Name) : Prop :=
  (definedInPass (one.lookup name) one.pass = true ∧ definedInPass (two.lookup name) two.pass = true ∧
    (one.lookup name).same (two.lookup name)) ∨
  ((one.lookup name).isUndefined = true ∧
    (definedInPass (two.lookup name) two.pass = false ∨ (two.lookup name).isExternal = true))

/-- In two contexts, one of each pass, an operand is read with the same counters, and its names are
recognised. -/
structure Twin (names : Name → Prop) (one two : Context) : Prop where
  first : one.pass = .one
  second : two.pass = .two
  seated : Seated one ∧ Seated two
  radix : two.base.current.radix two.inInstruction = one.base.current.radix one.inInstruction
  counter : ∀ place, two.counterValue place = one.counterValue place
  pool : ∀ place, literalAddress two.currentModule place = literalAddress one.currentModule place
  formed : ∀ name, (two.lookup name).WellFormed
  recognised : ∀ name, names name → Recognised one two name

variable {names : Name → Prop} {one two later after : Context}

theorem literalAddress_of_shell (same : later.shell = one.shell) (place : Nat) :
    literalAddress later.currentModule place = literalAddress one.currentModule place := by
  have shell := Context.currentModule_of_shell same
  have sections : later.currentModule.sections = one.currentModule.sections :=
    congrArg (·.sections) shell
  have absolute : later.currentModule.absolute = one.currentModule.absolute :=
    congrArg (·.absolute) shell
  unfold literalAddress Module.getSection
  rw [sections, absolute]

theorem Recognised.consulted {name : Name} (recognised : Recognised one two name)
    (pass : one.pass = .one) (first : Consulted one later) (second : Consulted two after) :
    Recognised later after name := by
  have onePass : later.pass = one.pass := congrArg (·.pass) first.shell
  have twoPass : after.pass = two.pass := congrArg (·.pass) second.shell
  unfold Recognised at recognised ⊢
  rw [onePass, twoPass]
  rcases recognised with ⟨known, seen, same⟩ | ⟨unknown, unseen⟩
  · have defined : (one.lookup name).isUndefined = false := by
      rw [pass] at known
      exact (Bool.not_eq_true' _).mp known
    have alsoDefined := (Value.isUndefined_of_same same).symm.trans defined
    rcases first.lookup name with here | ⟨undefined, -⟩
    · rcases second.lookup name with there | ⟨undefined, -⟩
      · rw [here, there]
        exact .inl ⟨known, seen, same⟩
      · exact absurd (alsoDefined.symm.trans undefined) Bool.false_ne_true
    · exact absurd (defined.symm.trans undefined) Bool.false_ne_true
  · refine .inr ⟨?_, ?_⟩
    · rcases first.lookup name with here | ⟨-, blank⟩
      · rwa [here]
      · rw [blank]
        rfl
    · rcases second.lookup name with there | ⟨-, blank⟩
      · rwa [there]
      · rw [blank]
        exact .inl (definedInPass_undefined _)

/-- Reading an operand in both contexts leaves all this as it is. -/
theorem Twin.consulted (twin : Twin names one two) (first : Consulted one later)
    (second : Consulted two after) : Twin names later after where
  first := (congrArg (·.pass) first.shell).trans twin.first
  second := (congrArg (·.pass) second.shell).trans twin.second
  seated := twin.seated.imp (poised_of_shell first.shell).seated (poised_of_shell second.shell).seated
  radix := by
    have here : later.base.current.radix later.inInstruction =
        one.base.current.radix one.inInstruction :=
      congrArg (fun context => context.base.current.radix context.inInstruction) first.shell
    have there : after.base.current.radix after.inInstruction =
        two.base.current.radix two.inInstruction :=
      congrArg (fun context => context.base.current.radix context.inInstruction) second.shell
    rw [here, there, twin.radix]
  counter place := by
    rw [Context.counterValue_of_shell first.shell, Context.counterValue_of_shell second.shell,
      twin.counter]
  pool place := by
    rw [literalAddress_of_shell first.shell, literalAddress_of_shell second.shell, twin.pool]
  formed name := by
    rcases second.lookup name with same | ⟨-, blank⟩
    · rw [same]
      exact twin.formed name
    · rw [blank]
      exact Value.wellFormed_undefined
  recognised name among := (twin.recognised name among).consulted twin.first first second

end Twins

section Reading

/-- What a part of an evaluation comes to in both passes, with whether it has met with something
ahead: the same, or something that is not known in the first pass and is ahead or external in the
second one. -/
inductive Seen : Value → Bool → Value → Bool → Prop
  | known (value : Value) : Seen value false value false
  | ahead {value other : Value} {later : Bool} (unknown : value.isUndefined = true)
      (unseen : later = true ∨ other.isExternal = true) : Seen value true other later

section Seen

variable {value left right other otherLeft otherRight result : Value} {ahead further later after : Bool}

theorem Seen.unary (seen : Seen value ahead other later) {op : UnaryOp} (formed : other.WellFormed)
    (computed : Value.unary op other = .ok result) (defined : result.isUndefined = false) :
    ∃ found, Value.unary op value = .ok found ∧ Seen found ahead result later := by
  cases seen with
  | known => exact ⟨result, computed, .known result⟩
  | ahead unknown unseen =>
    refine ⟨.undefined, if_pos unknown, .ahead rfl (unseen.imp_right fun external => ?_)⟩
    have operand := (Value.isUndefined_unary computed).symm.trans defined
    exact Value.isExternal_unary computed operand formed external

theorem Seen.binary (first : Seen left ahead otherLeft later)
    (second : Seen right further otherRight after) {op : BinaryOp} {outcome : Value.Outcome}
    (leftFormed : otherLeft.WellFormed) (rightFormed : otherRight.WellFormed)
    (computed : Value.binary op otherLeft otherRight = .ok outcome)
    (defined : outcome.value.isUndefined = false) :
    ∃ found, Value.binary op left right = .ok found ∧
      Seen found.value (ahead || further) outcome.value (later || after) := by
  have external := Value.isExternal_binary computed defined leftFormed rightFormed
  cases first with
  | known =>
    cases second with
    | known => exact ⟨outcome, computed, .known _⟩
    | ahead unknown unseen =>
      refine ⟨.plain .undefined, if_pos (by rw [unknown, Bool.or_true]), .ahead rfl ?_⟩
      exact unseen.imp id fun marked => external (.inr marked)
  | ahead unknown unseen =>
    refine ⟨.plain .undefined, if_pos (by rw [unknown, Bool.true_or]), .ahead rfl ?_⟩
    exact unseen.imp (fun met => by rw [met, Bool.true_or]) fun marked => external (.inl marked)

end Seen

/-- When a part of an evaluation comes to a value in the second pass, in the first one it comes to
one that goes with it. -/
structure Shadowed (read : EvalM AsmM Value) (here there : Place) (value : Value) : Prop where
  formed : value.WellFormed
  seen : ∃ other ahead later, (outcome read here).1 = .ok other ∧ Seen other ahead value later ∧
    (outcome read here).2.1.forward = (here.1.forward || ahead) ∧
    (outcome read there).2.1.forward = (there.1.forward || later)

variable {names : Name → Prop} {here there : Place} {value : Value}

/-- Operands that ask for nothing that the passes disagree on. -/
theorem shadowed_alike {read : EvalM AsmM Value} {result : Except ErrorKind Value}
    (first : outcome read here = (result, here)) (second : outcome read there = (result, there))
    (found : (outcome read there).1 = .ok value) (formed : value.WellFormed) :
    Shadowed read here there value := by
  rw [second] at found
  refine ⟨formed, value, false, false, ?_, .known value, ?_, ?_⟩
  · rw [first]
    exact found
  · rw [first, Bool.or_false]
  · rw [second, Bool.or_false]

theorem Recognised.seen {one two : Context} {name : Name} (recognised : Recognised one two name)
    (first : one.pass = .one) :
    Seen (one.lookup name).bare (!definedInPass (one.lookup name) one.pass) (two.lookup name).bare
      (!definedInPass (two.lookup name) two.pass) := by
  rcases recognised with ⟨known, seen, same⟩ | ⟨unknown, unseen⟩
  · rw [known, seen, Value.same_iff.mp same]
    exact .known _
  · have blank : definedInPass (one.lookup name) one.pass = false := by
      rw [first]
      exact congrArg (!·) unknown
    rw [blank]
    refine .ahead unknown (unseen.imp_left fun undefined => ?_)
    rw [undefined]
    rfl

theorem shadowed_symbol (twin : Twin names here.2 there.2) {name : Name} (among : names name)
    (found : (outcome (tree surroundings (.symbol name)) there).1 = .ok value) :
    Shadowed (tree surroundings (.symbol name)) here there value := by
  change (outcome (Eval.symbol surroundings name) there).1 = .ok value at found
  rw [outcome_symbol] at found
  cases found
  exact ⟨(twin.formed name).ofValue, (here.2.lookup name).bare, _, _,
    congrArg Prod.fst (outcome_symbol name here), (twin.recognised name among).seen twin.first,
    congrArg (·.2.1.forward) (outcome_symbol name here),
    congrArg (·.2.1.forward) (outcome_symbol name there)⟩

theorem outcome_number (text : String) (place : Place) :
    outcome (tree surroundings (.number text)) place =
      ((match Numeral.read text.toList (place.2.base.current.radix place.2.inInstruction) with
        | .ok (.integer n) => .ok (.absolute n)
        | .ok (.float x) => .ok (.float x)
        | .error _ => .error .syntaxError), place) := by
  change outcome (Eval.number surroundings text) place = _
  unfold Eval.number
  rw [outcome_bind_of (congrArg Prod.fst (outcome_radix place)), outcome_radix]
  rcases Numeral.read text.toList (place.2.base.current.radix place.2.inInstruction) with kind | n | x
  · rfl
  · rfl
  · rfl

theorem shadowed_number (twin : Twin names here.2 there.2) (text : String)
    (found : (outcome (tree surroundings (.number text)) there).1 = .ok value) :
    Shadowed (tree surroundings (.number text)) here there value := by
  refine shadowed_alike (outcome_number text here) ?_ found ?_
  · rw [outcome_number, twin.radix]
  · rw [outcome_number] at found
    dsimp only at found
    split at found
    · cases found
      exact Value.wellFormed_absolute _
    · cases found
      exact Value.wellFormed_float _
    · cases found

theorem outcome_string (constant : CharConstant) (place : Place) :
    outcome (tree surroundings (.string constant)) place =
      ((match constant.pack with
        | [] => .ok (.absolute 0)
        | [word] => .ok (.absolute word)
        | _ => .error .dataItem), place) := by
  change outcome (Eval.characters constant) place = _
  unfold Eval.characters
  rcases constant.pack with _ | ⟨word, _ | ⟨other, words⟩⟩
  · rfl
  · rfl
  · rfl

theorem shadowed_string (constant : CharConstant)
    (found : (outcome (tree surroundings (.string constant)) there).1 = .ok value) :
    Shadowed (tree surroundings (.string constant)) here there value := by
  refine shadowed_alike (outcome_string constant here) (outcome_string constant there) found ?_
  rw [outcome_string] at found
  dsimp only at found
  split at found
  · cases found
    exact Value.wellFormed_absolute _
  · cases found
    exact Value.wellFormed_absolute _
  · cases found

theorem wellFormed_counterValue (context : Context) (counter : Counter) :
    (context.counterValue counter).WellFormed := by
  cases counter with
  | location | parcel | origin => exact Value.wellFormed_address ..
  | absolute | wordBit | parcelBit => exact Value.wellFormed_absolute _

theorem shadowed_counter (twin : Twin names here.2 there.2) (counter : Counter)
    (found : (outcome (tree surroundings (.location counter)) there).1 = .ok value) :
    Shadowed (tree surroundings (.location counter)) here there value := by
  have asked (place : Place) : outcome (tree surroundings (.location counter)) place =
      (.ok (place.2.counterValue counter), place) := outcome_counter counter place
  refine shadowed_alike (asked here) ?_ found ?_
  · rw [asked, twin.counter]
  · rw [asked] at found
    cases found
    exact wellFormed_counterValue there.2 counter

end Reading

section Literals

/-- Literals have the same places in two pools. -/
def SamePlaces (keys : String → Prop) (one two : LiteralPool) : Prop :=
  ∀ key, keys key → two.offset key = one.offset key

/-- A literal is found where the pool has it in the end. -/
theorem offset_of_grown {context : Context} (seated : Seated context) {key : String}
    {words : List Word} {last : LiteralPool}
    (grown : (context.refer key words).currentModule.literals.Grown last) :
    last.offset key = context.currentModule.literals.offset key := by
  have pool : (context.refer key words).currentModule.literals =
      context.currentModule.literals.insert key words :=
    congrArg (·.literals) (Context.currentModule_modifyModule seated.1 _)
  rw [pool] at grown
  have entered := (LiteralPool.contains_insert context.currentModule.literals key words key).mpr
    (.inl rfl)
  rw [(grown key entered).2, LiteralPool.offset_insert (.inl rfl)]

variable {names : Name → Prop} {keys : String → Prop} {one two : LiteralPool}
  {here there : Context} {key : String}

/-- The same address is given for a literal in both passes, whatever it is to hold. -/
theorem Twin.literalAddress (twin : Twin names here there) (same : SamePlaces keys one two)
    (among : keys key) {words more : List Word}
    (first : (here.refer key words).currentModule.literals.Grown one)
    (second : (there.refer key more).currentModule.literals.Grown two) :
    literalAddress here.currentModule (here.currentModule.literals.offset key) =
      literalAddress there.currentModule (there.currentModule.literals.offset key) := by
  rw [← offset_of_grown twin.seated.1 first, ← offset_of_grown twin.seated.2 second, same key among,
    twin.pool]

theorem literalWords_undefined {value : Value} (unknown : value.isUndefined = true) :
    literalWords value = .ok ([0], true) := by
  unfold literalWords
  exact if_pos unknown

theorem defined_of_literalWords {value : Value} {words : List Word}
    (stored : literalWords value = .ok (words, false)) : value.isUndefined = false := by
  refine eq_false_of_ne_true fun unknown => ?_
  rw [literalWords_undefined unknown] at stored
  nomatch stored

theorem run_evaluate_tree (expr : Expr) (context : Context) :
    (expr.evaluate surroundings).run context =
      ((outcome (tree surroundings expr) ({}, context)).1.map fun value =>
        ⟨value, (outcome (tree surroundings expr) ({}, context)).2.1.forward,
          (outcome (tree surroundings expr) ({}, context)).2.1.warnings⟩,
        (outcome (tree surroundings expr) ({}, context)).2.2) := by
  rw [run_evaluate, Eval.run_steps]

/-- What is done with the operand of a literal is no more than consulting. -/
theorem consulted_literal (key : String) {evaluation : AsmM (Except ErrorKind Evaluation)}
    {result : Except ErrorKind Evaluation} {middle : Context}
    (read : evaluation.run here = (result, middle)) :
    Consulted middle ((literal key (.computed evaluation)).run here).2 := by
  have done : (literal key (.computed evaluation)).run here =
      (literal key (.computed (pure result))).run middle := by
    unfold literal
    dsimp only
    rw [StateT.run_bind, read]
    rfl
  rw [done]
  have holding : Holding (.keeping (Consulted middle)) False key (.computed (pure result)) :=
    ⟨nofun, .pure _⟩
  exact ((consults_consulted middle).literal holding middle (.refl middle)).1

variable {expr operand : Expr} {value : Value}

/-- Expressions that are known to be shadowed when their names are recognised and their literals have
the same places. -/
def Shadows (names : Name → Prop) (one two : LiteralPool) (expr : Expr) : Prop :=
  ∀ {here there : Place} {value : Value}, Twin names here.2 there.2 →
    (poolAfter (tree surroundings expr) here).Grown one →
    (poolAfter (tree surroundings expr) there).Grown two →
    (outcome (tree surroundings expr) there).1 = .ok value → value.isUndefined = false →
    Shadowed (tree surroundings expr) here there value

theorem wellFormed_literalAddress (module : Module) (place : Nat) :
    (literalAddress module place).WellFormed := by
  have formed := Value.wellFormed_address .word literalsSection
    (UInt64.ofNat ((module.getSection literalsSection).originOffset + place)) (!module.absolute)
  exact formed.of_same rfl formed.units rfl rfl rfl rfl fun _ => rfl

/-- An operand that has a value in pass 2 has been entered in pass 1, with or without one. -/
theorem literal_shadowed (twin : Twin names here there) (same : SamePlaces keys one two)
    (among : keys key) (shadows : Shadows names one two operand) {address : Value}
    (first : ((literal key (.computed (operand.evaluate surroundings))).run
      here).2.currentModule.literals.Grown one)
    (second : ((literal key (.computed (operand.evaluate surroundings))).run
      there).2.currentModule.literals.Grown two)
    (found : ((literal key (.computed (operand.evaluate surroundings))).run there).1 = .ok address) :
    address.WellFormed ∧
      ((literal key (.computed (operand.evaluate surroundings))).run here).1 = .ok address := by
  have readHere := run_evaluate_tree operand here
  have readThere := run_evaluate_tree operand there
  have poolHere := (consulted_literal key readHere).literals.trans first
  have poolThere := (consulted_literal key readThere).literals.trans second
  have later := twin.consulted (inquires_tree operand ({}, here)) (inquires_tree operand ({}, there))
  obtain ⟨known, words, result, stored, placed⟩ := literal_computed readThere later.second found
  obtain ⟨value, ok, known_eq⟩ : ∃ value, (outcome (tree surroundings operand) ({}, there)).1 =
      .ok value ∧ known.value = value := by
    generalize (outcome (tree surroundings operand) ({}, there)).1 = outcome at result
    cases outcome with
    | error kind => nomatch result
    | ok value =>
      cases result
      exact ⟨value, rfl, rfl⟩
  rw [known_eq] at stored
  obtain ⟨-, other, ahead, more, okHere, seen, -⟩ :=
    shadows twin poolHere poolThere ok (defined_of_literalWords stored)
  obtain ⟨content, undefined, storedHere⟩ : ∃ content undefined,
      literalWords other = .ok (content, undefined) := by
    cases seen with
    | known => exact ⟨words, false, stored⟩
    | ahead unknown => exact ⟨[0], true, literalWords_undefined unknown⟩
  rw [okHere] at readHere
  have placedHere := literal_placed key readHere storedHere
  rw [run_placeLiteral, later.first] at placedHere
  rw [placed] at found second
  rw [placedHere] at first ⊢
  cases found
  refine ⟨wellFormed_literalAddress .., ?_⟩
  rw [if_neg (by simp)]
  exact congrArg _ (later.literalAddress same among first second)

theorem shadowed_literal {here there : Place} (twin : Twin names here.2 there.2)
    (same : SamePlaces keys one two) (among : keys key) (shadows : Shadows names one two operand)
    (first : (poolAfter (tree surroundings (.literal key operand)) here).Grown one)
    (second : (poolAfter (tree surroundings (.literal key operand)) there).Grown two)
    (found : (outcome (tree surroundings (.literal key operand)) there).1 = .ok value) :
    Shadowed (tree surroundings (.literal key operand)) here there value := by
  unfold poolAfter at first second
  rw [tree_literalOperand] at first second found ⊢
  have answer (place : Place) := outcome_literal key (literalOperand operand) place
  suffices both : value.WellFormed ∧ ((literal key (literalOperand operand)).run here.2).1 = .ok value by
    exact ⟨both.1, value, false, false, (congrArg Prod.fst (answer here)).trans both.2, .known value,
      by rw [answer, Bool.or_false], by rw [answer, Bool.or_false]⟩
  rw [answer] at first second found
  rcases literalOperand_cases operand with ⟨constant, rfl⟩ | ⟨computed, -, -⟩
  · have placed (context : Context) : (literal key (literalOperand (.string constant))).run context = _ :=
      run_placeLiteral context key constant.pack false
    rw [placed] at first second found ⊢
    cases found
    exact ⟨wellFormed_literalAddress .., congrArg _ (twin.literalAddress same among first second)⟩
  · rw [computed] at first second found ⊢
    exact literal_shadowed twin same among shadows first second found

theorem shadows_unary (shadows : Shadows names one two operand) (op : UnaryOp) :
    Shadows names one two (.unary op operand) := by
  intro here there value twin first second found defined
  have applied {place : Place} {operandValue : Value}
      (known : (outcome (tree surroundings operand) place).1 = .ok operandValue) :
      outcome (tree surroundings (.unary op operand)) place =
        (Value.unary op operandValue, (outcome (tree surroundings operand) place).2) :=
    (outcome_bind_of known).trans (outcome_evalUnary ..)
  have inquires (value : Value) : Inquires (Eval.unary op value) := fun place => by
    rw [outcome_evalUnary]
    exact .refl place.2
  obtain ⟨inner, innerFound⟩ := ok_of_outcome_bind found
  rw [applied innerFound] at found
  obtain ⟨formed, other, ahead, later, otherFound, seen, forward, forwardThere⟩ :=
    shadows twin ((grown_bind inquires here).trans first) ((grown_bind inquires there).trans second)
      innerFound ((Value.isUndefined_unary found).symm.trans defined)
  obtain ⟨result, computed, related⟩ := seen.unary formed found defined
  refine ⟨formed.unary op found, result, ahead, later, ?_, related, ?_, ?_⟩
  · rw [applied otherFound]
    exact computed
  · rw [applied otherFound]
    exact forward
  · rw [applied innerFound]
    exact forwardThere

/-- An operator on two operands, once both are known. -/
theorem outcome_treeBinary (op : BinaryOp) {left right : Expr} {place : Place}
    {leftValue rightValue : Value} (first : (outcome (tree surroundings left) place).1 = .ok leftValue)
    (second : (outcome (tree surroundings right) (outcome (tree surroundings left) place).2).1 =
      .ok rightValue) :
    ∃ warnings, outcome (tree surroundings (.binary op left right)) place =
      ((Value.binary op leftValue rightValue).map (·.value),
        { (outcome (tree surroundings right) (outcome (tree surroundings left) place).2).2.1 with
          warnings },
        (outcome (tree surroundings right) (outcome (tree surroundings left) place).2).2.2) := by
  obtain ⟨warnings, operated⟩ := outcome_evalBinary op leftValue rightValue
    (outcome (tree surroundings right) (outcome (tree surroundings left) place).2).2
  exact ⟨warnings, (outcome_bind_of first).trans ((outcome_bind_of second).trans operated)⟩

theorem shadows_binary {left right : Expr} (leftShadows : Shadows names one two left)
    (rightShadows : Shadows names one two right) (op : BinaryOp) :
    Shadows names one two (.binary op left right) := by
  intro here there value twin first second found defined
  have last (leftValue rightValue : Value) : Inquires (Eval.binary op leftValue rightValue) :=
    inquires_binary op leftValue rightValue
  have rest (leftValue : Value) : Inquires (do
      let rightValue ← tree surroundings right
      Eval.binary op leftValue rightValue) := (inquires_tree right).bind (last leftValue)
  have rightPool {place : Place} {leftValue : Value}
      (known : (outcome (tree surroundings left) place).1 = .ok leftValue) :
      (poolAfter (tree surroundings right) (outcome (tree surroundings left) place).2).Grown
        (poolAfter (tree surroundings (.binary op left right)) place) := by
    have applied : outcome (tree surroundings (.binary op left right)) place = outcome (do
        let rightValue ← tree surroundings right
        Eval.binary op leftValue rightValue) (outcome (tree surroundings left) place).2 :=
      outcome_bind_of known
    unfold poolAfter
    rw [applied]
    exact grown_bind (last leftValue) _
  -- In pass 2 both operands have values, and these are defined, since the result is.
  obtain ⟨leftValue, leftFound⟩ := ok_of_outcome_bind found
  obtain ⟨rightValue, rightFound⟩ : ∃ rightValue, (outcome (tree surroundings right)
      (outcome (tree surroundings left) there).2).1 = .ok rightValue :=
    ok_of_outcome_bind ((congrArg Prod.fst (outcome_bind_of leftFound)).symm.trans found)
  obtain ⟨noted, operated⟩ := outcome_treeBinary op leftFound rightFound
  obtain ⟨result, computed, rfl⟩ : ∃ result, Value.binary op leftValue rightValue = .ok result ∧
      result.value = value := by
    rw [operated] at found
    cases computed : Value.binary op leftValue rightValue with
    | error kind => rw [computed] at found; nomatch found
    | ok result => rw [computed] at found; exact ⟨result, rfl, Except.ok.inj found⟩
  have operands := (Value.isUndefined_binary computed).symm.trans defined
  rw [Bool.or_eq_false_iff] at operands
  -- So in pass 1 they have values too, first the left one and then the right one.
  obtain ⟨leftFormed, left', ahead, later, leftHere, leftSeen, forward, forwardThere⟩ :=
    leftShadows twin ((grown_bind rest here).trans first) ((grown_bind rest there).trans second)
      leftFound operands.1
  have middle := twin.consulted (inquires_tree left here) (inquires_tree left there)
  obtain ⟨rightFormed, right', further, after, rightHere, rightSeen, onward, onwardThere⟩ :=
    rightShadows middle ((rightPool leftHere).trans first) ((rightPool leftFound).trans second)
      rightFound operands.2
  obtain ⟨result', computed', related⟩ :=
    leftSeen.binary rightSeen leftFormed rightFormed computed defined
  obtain ⟨noted', operated'⟩ := outcome_treeBinary op leftHere rightHere
  refine ⟨leftFormed.binary op rightFormed computed, result'.value, _, _, ?_, related, ?_, ?_⟩
  · rw [operated', computed']
    rfl
  · rw [operated', ← Bool.or_assoc, ← forward]
    exact onward
  · rw [operated, ← Bool.or_assoc, ← forwardThere]
    exact onwardThere

/-- Whatever an expression comes to in pass 2, in pass 1 it comes to what goes with it. -/
theorem shadows_tree (same : SamePlaces keys one two) {expr : Expr}
    (known : ∀ name ∈ expr.names, names name) (among : ∀ key ∈ expr.literals, keys key) :
    Shadows names one two expr := by
  induction expr with
  | symbol name => exact fun twin _ _ found _ => shadowed_symbol twin (known name (.head _)) found
  | number text => exact fun twin _ _ found _ => shadowed_number twin text found
  | based n =>
    rintro here there value twin - - ⟨⟩ -
    exact shadowed_alike rfl rfl rfl (Value.wellFormed_absolute n)
  | string constant => exact fun _ _ _ found _ => shadowed_string constant found
  | location counter => exact fun twin _ _ found _ => shadowed_counter twin counter found
  | unary op operand ih => exact shadows_unary (ih known among) op
  | binary op left right first second =>
    obtain ⟨leftKnown, rightKnown⟩ := List.forall_mem_append.mp known
    obtain ⟨leftAmong, rightAmong⟩ := List.forall_mem_append.mp among
    exact shadows_binary (first leftKnown leftAmong) (second rightKnown rightAmong) op
  | group inner ih => exact ih known among
  | literal key operand ih =>
    obtain ⟨here, inside⟩ := List.forall_mem_cons.mp among
    exact fun twin first second found _ =>
      shadowed_literal twin same here (ih known inside) first second found

end Literals

end Asm

end CrayAssembler
