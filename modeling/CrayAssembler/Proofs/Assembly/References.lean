import CrayAssembler.Proofs.Assembly.Chain
import CrayAssembler.Proofs.Assembly.Operands
import CrayAssembler.Proofs.Module.Literals

namespace CrayAssembler

/-- Expressions of statements: operands, arguments of instructions, and their parts. -/
inductive Expr.Written : Expr → Prop
  | operand {expr : Expr} (text : List Char) (flexible : Bool) :
      parseComplete (tokenize text flexible) text = .ok expr → Written expr
  | argument {expr : Expr} {result operand : String} {flexible : Bool}
      {found : Matcher.Found InstructionSet.Rule} :
      InstructionSet.table.find (.ofText result flexible) (.ofText operand flexible) flexible =
        .ok found → .expression expr ∈ found.args → Written expr
  | underUnary {op : UnaryOp} {expr : Expr} : Written (.unary op expr) → Written expr
  | onLeft {op : BinaryOp} {expr right : Expr} : Written (.binary op expr right) → Written expr
  | onRight {op : BinaryOp} {left expr : Expr} : Written (.binary op left expr) → Written expr
  | inGroup {expr : Expr} : Written (.group expr) → Written expr
  | inLiteral {key : String} {expr : Expr} : Written (.literal key expr) → Written expr

theorem Expr.Written.keyed {expr : Expr} (written : expr.Written) : expr.Keyed := by
  induction written with
  | operand text flexible parsed => exact keyed_parseComplete (laid_tokenize text flexible) parsed
  | argument found member =>
    exact Matcher.keyed_find (laid_tokenize _ _) (laid_tokenize _ _) found _ member
  | underUnary _ ih => exact ih
  | onLeft _ ih => exact ih.1
  | onRight _ ih => exact ih.2
  | inGroup _ ih => exact ih
  | inLiteral _ ih => exact ih.2

namespace Asm

variable {start context after : Context} {references more : List Reference}

section Pools

/-- Every literal pool has the words that its keys tell. -/
def PoolsCounted (context : Context) : Prop :=
  ∀ index, (context.moduleAt index).literals.Counted

theorem PoolsCounted.of_same (counted : PoolsCounted context)
    (same : ∀ index, (after.moduleAt index).literals = (context.moduleAt index).literals) :
    PoolsCounted after := by
  intro index
  rw [same index]
  exact counted index

theorem literals_refer (context : Context) (key : String) (words : List Word) (index : Nat) :
    ((context.refer key words).moduleAt index).literals =
      if context.moduleIndex = index ∧ index < context.modules.length then
        (context.moduleAt index).literals.insert key words
      else (context.moduleAt index).literals := by
  unfold Context.refer
  rw [Context.moduleAt_modifyModule]
  split
  case isTrue both =>
    obtain ⟨rfl, -⟩ := both
    rfl
  case isFalse => rfl

theorem literals_closed (context : Context) (index : Nat) :
    (context.closed.moduleAt index).literals = (context.moduleAt index).literals := by
  rw [Context.moduleAt_closed, Context.sealed, Context.moduleAt_modifyModule]
  split
  case isTrue both =>
    obtain ⟨rfl, -⟩ := both
    rfl
  case isFalse => rfl

theorem PoolsCounted.run (counted : PoolsCounted context) (run : Run context more after) :
    PoolsCounted after := by
  induction run with
  | refl => exact counted
  | deed _ deed ih => exact ih.of_same deed.literals
  | refer key words _ length ih =>
    intro index
    rw [literals_refer]
    split
    · exact (ih index).insert length
    · exact ih index

theorem PoolsCounted.session (counted : PoolsCounted start)
    (session : Session start references context) : PoolsCounted context := by
  induction session with
  | refl => exact counted
  | run _ run ih => exact ih.run run
  | enter _ _ _ _ _ ih => exact ih
  | leave _ ih => exact ih
  | @close _ context _ _ _ _ ih => exact ih.of_same (literals_closed context)

/-- The words that a reference finds after later ones: those of the last with the same text in the
same module. -/
def lastWords (index : Nat) (key : String) (words : List Word) (later : List Reference) :
    List Word :=
  later.foldl (fun words reference =>
    if reference.module = index ∧ reference.key = key then reference.words else words) words

/-- A literal is held at a place of the pool of a module. -/
structure Holds (context : Context) (index : Nat) (key : String) (place : Nat)
    (words : List Word) : Prop where
  counted : PoolsCounted context
  held : (context.moduleAt index).literals.held? key = some words
  offset : (context.moduleAt index).literals.offset key = place

variable {index place : Nat} {key : String} {words : List Word}

theorem Holds.of_same (holds : Holds context index key place words)
    (same : ∀ index, (after.moduleAt index).literals = (context.moduleAt index).literals) :
    Holds after index key place words where
  counted := holds.counted.of_same same
  held := by rw [same]; exact holds.held
  offset := by rw [same]; exact holds.offset

theorem Holds.known (holds : Holds context index key place words) :
    (context.moduleAt index).literals.contains key :=
  LiteralPool.held?_isSome.mp (Option.isSome_of_eq_some holds.held)

/-- Only modules that there are hold literals. -/
theorem Holds.index_lt (holds : Holds context index key place words) :
    index < context.modules.length := by
  refine Decidable.byContradiction fun beyond => ?_
  have held := holds.held
  rw [Context.moduleAt_of_le (Nat.not_lt.mp beyond)] at held
  nomatch held

/-- A reference replaces the words of the literal with its text. -/
theorem Holds.refer (holds : Holds context index key place words) {other : String}
    {new : List Word} (length : new.length = LiteralPool.wordCount other) :
    Holds (context.refer other new) index key place
      (if context.moduleIndex = index ∧ other = key then new else words) where
  counted := holds.counted.run (.refer other new .refl length)
  held := by
    rw [literals_refer]
    by_cases here : context.moduleIndex = index
    · rw [if_pos ⟨here, holds.index_lt⟩, LiteralPool.held?_insert (holds.counted index) length,
        holds.held]
      by_cases same : other = key
      · rw [if_pos same, if_pos ⟨here, same⟩]
      · rw [if_neg same, if_neg fun both => same both.2]
    · rw [if_neg fun both => here both.1, if_neg fun both => here both.1]
      exact holds.held
  offset := by
    rw [literals_refer]
    split
    · rw [LiteralPool.offset_insert (.inr holds.known)]
      exact holds.offset
    · exact holds.offset

/-- A literal is held from its reference on. -/
theorem holds_refer (counted : PoolsCounted context)
    (known : context.moduleIndex < context.modules.length)
    (length : words.length = LiteralPool.wordCount key) :
    Holds (context.refer key words) context.moduleIndex key
      (context.currentModule.literals.offset key) words where
  counted := counted.run (.refer key words .refl length)
  held := by
    rw [literals_refer, if_pos ⟨rfl, known⟩, LiteralPool.held?_insert (counted _) length,
      if_pos rfl]
  offset := by
    rw [literals_refer, if_pos ⟨rfl, known⟩, LiteralPool.offset_insert (.inl rfl)]
    rfl

/-- The words of a literal are found at its place. -/
theorem Holds.at_place (holds : Holds context index key place words) :
    ((context.moduleAt index).literals.words.drop place).take words.length = words := by
  rw [← holds.offset]
  exact LiteralPool.words_held holds.held

theorem Holds.run (holds : Holds context index key place words) (run : Run context more after) :
    Holds after index key place (lastWords index key words more) := by
  induction run with
  | refl => exact holds
  | deed _ deed ih => exact ih.of_same deed.literals
  | refer other new _ length ih =>
    unfold lastWords
    rw [List.foldl_append]
    exact ih.refer length

/-- The pool of a module keeps the place of a literal, and holds the words of the last reference. -/
theorem Holds.session (holds : Holds start index key place words)
    (session : Session start references context) :
    Holds context index key place (lastWords index key words references) := by
  induction session with
  | refl => exact holds
  | run _ run ih =>
    unfold lastWords
    rw [List.foldl_append]
    exact ih.run run
  | enter _ _ _ _ _ ih => exact ih.of_same fun _ => rfl
  | leave _ ih => exact ih.of_same fun _ => rfl
  | @close _ context _ _ _ _ ih => exact ih.of_same (literals_closed context)

end Pools

section References

/-- The words that an operand comes to where it is read: its characters, or its value as it is
stored. -/
def ComesTo (context : Context) (words : List Word) : Expr → Prop
  | .string constant => words = constant.pack
  | operand => ∃ evaluation word, ((operand.evaluate surroundings).run context).1 = .ok evaluation ∧
      storedWord evaluation.value = .ok word ∧ words = [word]

/-- What a literal is to hold, as the surroundings are asked for it. -/
def literalOperand (operand : Expr) : LiteralOperand AsmM :=
  match operand with
  | .string constant => .characters constant
  | _ => .computed (operand.evaluate surroundings)

/-- The address of a literal at a place of the pool. -/
def literalAddress (module : Module) (place : Nat) : Value :=
  let address := Value.address .word literalsSection
    (UInt64.ofNat ((module.getSection literalsSection).originOffset + place)) (!module.absolute)
  { address with attributes := { address.attributes with literal := true } }

theorem run_placeLiteral (context : Context) (key : String) (words : List Word)
    (undefined : Bool) :
    (placeLiteral key words undefined).run context =
      (if undefined && context.pass = .two then .error .undefinedSymbol
        else .ok (literalAddress context.currentModule (context.currentModule.literals.offset key)),
        context.refer key words) := by
  unfold placeLiteral
  rw [StateT.run_bind, StateT.run_get, pure_bind]
  simp only [LiteralPool.intern_eq]
  rw [StateT.run_bind, run_modifyModule, pure_bind]
  dsimp only
  split <;> rfl

/-- Evaluating what is asked of the surroundings and nothing else. -/
theorem run_collect (action : AsmM (Except ErrorKind Value)) (context : Context) :
    (Eval.collect (Eval.run [.operand (do
      match ← action with
      | .ok value => return value
      | .error kind => throw kind : Eval.EvalM AsmM Value)])).run context =
      ((action.run context).1.map fun value => (⟨value, false, []⟩ : Evaluation),
        (action.run context).2) := by
  have asked : ((liftM action : Eval.EvalM AsmM _).run.run {}).run context =
      ((.ok (action.run context).1, {}), (action.run context).2) := rfl
  unfold Eval.collect Eval.run
  simp only [List.foldlM_cons, List.foldlM_nil, Eval.step, ExceptT.run_bind, StateT.run_bind, asked]
  cases (action.run context).1 <;> rfl

theorem evaluate_literal (key : String) (operand : Expr) (context : Context) :
    ((Expr.literal key operand).evaluate surroundings).run context =
      (((literal key (literalOperand operand)).run context).1.map fun value =>
        (⟨value, false, []⟩ : Evaluation), ((literal key (literalOperand operand)).run context).2) := by
  have asked : Eval.steps surroundings (.literal key operand) =
      [.operand (Eval.literal surroundings key (literalOperand operand))] := by
    cases operand <;> rfl
  unfold Expr.evaluate
  rw [asked]
  exact run_collect (literal key (literalOperand operand)) context

/-- A character constant is packed, all else is evaluated. -/
theorem literalOperand_cases (operand : Expr) : (∃ constant, operand = .string constant) ∨
    literalOperand operand = .computed (operand.evaluate surroundings) ∧ operand.wordCount = 1 ∧
      ∀ context words, (∃ evaluation word,
        ((operand.evaluate surroundings).run context).1 = .ok evaluation ∧
        storedWord evaluation.value = .ok word ∧ words = [word]) → ComesTo context words operand := by
  cases operand with
  | string constant => exact .inl ⟨constant, rfl⟩
  | _ => exact .inr ⟨rfl, rfl, fun _ _ comes => comes⟩

/-- A value that is defined is stored in its word. -/
theorem storedWord_of_literalWords {value : Value} {words : List Word}
    (stored : literalWords value = .ok (words, false)) :
    ∃ word, storedWord value = .ok word ∧ words = [word] := by
  unfold literalWords at stored
  split at stored
  · nomatch stored
  change (if value.isRelocatable || value.isExternal then .error .relocatableField
    else storedWord value >>= fun word => .ok ([word], false)) = _ at stored
  split at stored
  · nomatch stored
  · cases known : storedWord value with
    | error kind =>
      rw [known] at stored
      nomatch stored
    | ok word =>
      rw [known] at stored
      cases stored
      exact ⟨word, rfl, rfl⟩

/-- What an operand comes to is entered, if it can be stored. -/
theorem literal_placed (key : String) {evaluation : AsmM (Except ErrorKind Evaluation)}
    {here middle : Context} {found : Evaluation} {words : List Word} {undefined : Bool}
    (read : evaluation.run here = (.ok found, middle))
    (stored : literalWords found.value = .ok (words, undefined)) :
    (literal key (.computed evaluation)).run here =
      (placeLiteral key words undefined).run middle := by
  unfold literal
  dsimp only
  rw [StateT.run_bind, read]
  dsimp only [bind, pure]
  rw [stored]

/-- In pass 2 an operand is entered only if it has a value that can be stored. -/
theorem literal_computed {key : String} {evaluation : AsmM (Except ErrorKind Evaluation)}
    {here middle : Context} {result : Except ErrorKind Evaluation} {address : Value}
    (read : evaluation.run here = (result, middle)) (second : middle.pass = .two)
    (found : ((literal key (.computed evaluation)).run here).1 = .ok address) :
    ∃ known words, result = .ok known ∧ literalWords known.value = .ok (words, false) ∧
      (literal key (.computed evaluation)).run here = (.ok (literalAddress middle.currentModule
        (middle.currentModule.literals.offset key)), middle.refer key words) := by
  cases result with
  | error kind =>
    have failed : (literal key (.computed evaluation)).run here = (.error kind, middle) := by
      unfold literal
      dsimp only
      rw [StateT.run_bind, read]
      rfl
    rw [failed] at found
    cases found
  | ok known =>
  cases stored : literalWords known.value with
  | error kind =>
    have failed : (literal key (.computed evaluation)).run here = (.error kind, middle) := by
      unfold literal
      dsimp only
      rw [StateT.run_bind, read]
      dsimp only [bind, pure]
      rw [stored]
      rfl
    rw [failed] at found
    cases found
  | ok pair =>
  obtain ⟨words, undefined⟩ := pair
  have placed := literal_placed key read stored
  rw [run_placeLiteral, second] at placed
  cases undefined with
  | true =>
    rw [placed] at found
    cases found
  | false => exact ⟨known, words, rfl, stored, placed⟩

/-- A literal that has a value is found in the pool, once its operand has been read. -/
theorem reference_of_evaluate {here : Context} {key : String} {operand : Expr}
    {evaluation : Evaluation} (sound : here.Sound) (second : here.pass = .two)
    (keyed : (Expr.literal key operand).Keyed)
    (evaluated : ((Expr.literal key operand).evaluate surroundings).run here =
      (.ok evaluation, after)) :
    ∃ words nested middle, ComesTo here words operand ∧ words.length = LiteralPool.wordCount key ∧
      Run here nested middle ∧ after = middle.refer key words ∧
      evaluation.value =
        literalAddress middle.currentModule (middle.currentModule.literals.offset key) := by
  rw [evaluate_literal] at evaluated
  obtain ⟨found, rfl⟩ := Prod.mk.inj evaluated
  obtain ⟨address, located, rfl⟩ : ∃ address,
      ((literal key (literalOperand operand)).run here).1 = .ok address ∧
        (⟨address, false, []⟩ : Evaluation) = evaluation := by
    cases outcome : ((literal key (literalOperand operand)).run here).1 with
    | error kind => rw [outcome] at found; nomatch found
    | ok address => rw [outcome] at found; exact ⟨address, rfl, Except.ok.inj found⟩
  rcases literalOperand_cases operand with ⟨constant, rfl⟩ | ⟨computed, single, comes⟩
  · have placed : (literal key (literalOperand (.string constant))).run here = _ :=
      run_placeLiteral here key constant.pack false
    rw [placed] at located ⊢
    exact ⟨constant.pack, [], here, rfl, keyed.1.symm, .refl, rfl, (Except.ok.inj located).symm⟩
  · have quiet := ((reads_quiet sound).evaluate (fun _ => keyed.2) here (.refl here)).1
    obtain ⟨nested, run⟩ := quiet.deeds
    rw [computed] at located ⊢
    cases read : (operand.evaluate surroundings).run here with
    | mk result middle =>
    rw [read] at quiet run
    obtain ⟨known, words, rfl, stored, placed⟩ :=
      literal_computed read (quiet.pass.trans second) located
    obtain ⟨word, held, rfl⟩ := storedWord_of_literalWords stored
    rw [placed] at located ⊢
    exact ⟨[word], nested, middle,
      comes here [word] ⟨known, word, congrArg Prod.fst read, held, rfl⟩,
      (keyed.1.trans single).symm, run, rfl, (Except.ok.inj located).symm⟩

end References

end Asm

end CrayAssembler
