import CrayAssembler.Assembly.Directive.Condition
import CrayAssembler.Proofs.Assembly.Paired
import CrayAssembler.Proofs.Assembly.Step
import CrayAssembler.Proofs.Symbol.Persistence

namespace CrayAssembler

theorem Diagnostic.mem_all (diagnostic : Diagnostic) : diagnostic ∈ all := by
  cases diagnostic with
  | error kind => cases kind <;> decide
  | warning kind => cases kind <;> decide
  | moduleEnd => decide

/-- Names and counters of an expression without literals have the given properties. -/
def Expr.All (symbol : Name → Prop) (counter : Counter → Prop) : Expr → Prop
  | .symbol name => symbol name
  | .number _ | .based _ | .string _ => True
  | .location place => counter place
  | .unary _ operand => operand.All symbol counter
  | .binary _ left right => left.All symbol counter ∧ right.All symbol counter
  | .group inner => inner.All symbol counter
  | .literal _ _ => False

instance Expr.decidableAll {symbol : Name → Prop} {counter : Counter → Prop} [DecidablePred symbol]
    [DecidablePred counter] : (expr : Expr) → Decidable (expr.All symbol counter)
  | .symbol name => inferInstanceAs (Decidable (symbol name))
  | .number _ | .based _ | .string _ => .isTrue trivial
  | .location place => inferInstanceAs (Decidable (counter place))
  | .unary _ operand => decidableAll operand
  | .binary _ left right => @instDecidableAnd _ _ (decidableAll left) (decidableAll right)
  | .group inner => decidableAll inner
  | .literal _ _ => .isFalse id

theorem Expr.All.mono {symbol symbol' : Name → Prop} {counter counter' : Counter → Prop}
    (symbols : ∀ name, symbol name → symbol' name)
    (counters : ∀ place, counter place → counter' place) {expr : Expr}
    (all : expr.All symbol counter) : expr.All symbol' counter' := by
  induction expr with
  | symbol name => exact symbols name all
  | location place => exact counters place all
  | unary op operand ih => exact ih all
  | binary op left right leftIh rightIh => exact ⟨leftIh all.1, rightIh all.2⟩
  | group inner ih => exact ih all
  | literal key operand => nomatch all
  | _ => trivial

namespace Context

/-- The symbol that a name refers to. -/
def keyOf (context : Context) (name : Name) : SymbolKey :=
  context.currentModule.symbols.resolve name context.qualifier.current

/-- The value that a name stands for. -/
def lookup (context : Context) (name : Name) : Value :=
  context.currentModule.symbols.lookup name context.qualifier.current

/-- A symbol is entered unless it is known. -/
def mention (context : Context) (key : SymbolKey) : Context :=
  context.modifyModule fun module =>
    { module with symbols := context.currentModule.symbols.mention key }

/-- The value of a counter. -/
def counterValue (context : Context) (counter : Counter) : Value :=
  ((Asm.counter counter).run context).1

/-- A mention changes the symbols of the current module, if there is one, and nothing else of it. -/
theorem currentModule_mention (context : Context) (key : SymbolKey) :
    ∃ symbols, (context.mention key).currentModule = { context.currentModule with symbols } ∧
      (symbols = context.currentModule.symbols ∨
        symbols = context.currentModule.symbols.mention key) := by
  by_cases current : context.moduleIndex < context.modules.length
  · exact ⟨_, currentModule_modifyModule current _, .inr rfl⟩
  · refine ⟨_, ?_, .inl rfl⟩
    unfold mention modifyModule currentModule
    rw [List.modify_eq_self (Nat.not_lt.mp current)]

end Context

namespace Asm

open Eval (EvalM)

theorem run_symbol (context : Context) (name : Name) :
    (symbol name).run context =
      (⟨context.lookup name, !definedInPass (context.lookup name) context.pass⟩,
        context.mention (context.keyOf name)) := by
  unfold symbol
  rw [StateT.run_bind, StateT.run_get, pure_bind]
  dsimp only
  rw [SymbolTable.reference_eq]
  refine Prod.ext (congrArg (SymbolRef.mk _) ?_) rfl
  unfold definedInPass
  cases context.pass with
  | one => exact (Bool.not_not _).symm
  | two => exact (Bool.not_or ..).symm

/-- The second context differs from the first one in what reading an operand leaves behind:
mentions of symbols and diagnostics. -/
structure Glance (context later : Context) : Prop where
  settings : later.settings = context.settings
  pass : later.pass = context.pass
  skip : later.skip = context.skip
  radix : later.base.current.radix later.inInstruction =
    context.base.current.radix context.inInstruction
  counter : ∀ place, later.counterValue place = context.counterValue place
  lookup : ∀ name, later.lookup name = context.lookup name ∨
    (context.lookup name).isUndefined ∧ later.lookup name = .undefined

theorem Glance.refl (context : Context) : Glance context context :=
  ⟨rfl, rfl, rfl, rfl, fun _ => rfl, fun _ => .inl rfl⟩

theorem Glance.trans {context middle later : Context} (first : Glance context middle)
    (second : Glance middle later) : Glance context later where
  settings := second.settings.trans first.settings
  pass := second.pass.trans first.pass
  skip := second.skip.trans first.skip
  radix := second.radix.trans first.radix
  counter place := (second.counter place).trans (first.counter place)
  lookup name := by
    rcases first.lookup name with same | ⟨undefined, blank⟩
    · rw [← same]
      exact second.lookup name
    · refine .inr ⟨undefined, ?_⟩
      rcases second.lookup name with same | ⟨-, blank⟩
      · rw [same, blank]
      · exact blank

theorem Glance.register (context : Context) (d : Diagnostic) :
    Glance context (context.register d) :=
  ⟨rfl, rfl, rfl, rfl, fun place => by cases place <;> rfl, fun _ => .inl rfl⟩

theorem Glance.mention (context : Context) (key : SymbolKey) :
    Glance context (context.mention key) := by
  obtain ⟨symbols, current, known⟩ := context.currentModule_mention key
  refine ⟨rfl, rfl, rfl, rfl, fun place => ?_, fun name => ?_⟩
  · have here : (context.mention key).currentSection = context.currentSection := by
      unfold Context.currentSection
      rw [current]
      rfl
    have relocatable : (context.mention key).relocatable = context.relocatable := by
      unfold Context.relocatable
      rw [current]
    unfold Context.counterValue Asm.counter
    simp only [StateT.run_bind, StateT.run_get, pure_bind, here, relocatable]
    cases place <;> rfl
  · unfold Context.lookup
    rw [current]
    rcases known with rfl | rfl
    · exact .inl rfl
    · exact SymbolTable.lookup_mention ..

theorem definedInPass_undefined (pass : Pass) : definedInPass .undefined pass = false := by
  cases pass <;> rfl

/-- What reading a symbol comes to. -/
theorem outcome_symbol (name : Name) (place : Place) :
    outcome (Eval.symbol surroundings name) place =
      (.ok (place.2.lookup name).bare,
        { place.1 with
          forward := place.1.forward || !definedInPass (place.2.lookup name) place.2.pass },
        place.2.mention (place.2.keyOf name)) := by
  change (let (found, context) := (symbol name).run place.2
    (Except.ok { found.value with attributes := found.value.attributes.ofValue },
      { place.1 with forward := place.1.forward || found.forward }, context)) = _
  rw [run_symbol]
  rfl

theorem outcome_counter (counter : Counter) (place : Place) :
    outcome (liftM (Asm.counter counter) : EvalM AsmM Value) place =
      (.ok (place.2.counterValue counter), place) := by
  cases counter <;> rfl

theorem outcome_radix (place : Place) :
    outcome (liftM surroundings.radix : EvalM AsmM Nat) place =
      (.ok (place.2.base.current.radix place.2.inInstruction), place) :=
  rfl

theorem compatible_eq : Compatible (· = ·) where
  unary op {value other} same := by
    subst same
    exact .of_same fun _ _ => rfl
  binary op {left right left' right'} first second := by
    subst first second
    exact .of_same fun _ _ => ⟨rfl, rfl⟩

/-- An expression without literals is read alike if its names, counters and numbers are. -/
theorem paired_plain {J : Place → Place → Prop} {N : Name → Prop} {C : Counter → Prop}
    (symbol : ∀ name, N name →
      Paired J (Eval.symbol surroundings name) (Eval.symbol surroundings name) (· = ·))
    (counter : ∀ place, C place →
      Paired J (liftM (Asm.counter place) : EvalM AsmM Value) (liftM (Asm.counter place)) (· = ·))
    (radix : Paired J (liftM surroundings.radix : EvalM AsmM Nat) (liftM surroundings.radix)
      (· = ·))
    {expr : Expr} (all : expr.All N C) :
    ∀ step ∈ Eval.steps surroundings expr, PairedStep J (· = ·) step := by
  induction expr with
  | symbol name => exact pairedStep_operand (symbol name all)
  | number text =>
    refine pairedStep_operand (radix.bind fun n m same => ?_)
    subst same
    split
    · exact .pure rfl
    · exact .pure rfl
    · exact .throw _
  | based value => exact pairedStep_operand (.pure rfl)
  | string constant =>
    refine pairedStep_operand ?_
    unfold Eval.characters
    split
    · exact .pure rfl
    · exact .pure rfl
    · exact .throw _
  | location place => exact pairedStep_operand (counter place all)
  | unary op operand ih => exact pairedStep_unary op (ih all)
  | binary op left right leftIh rightIh => exact pairedStep_binary op (leftIh all.1) (rightIh all.2)
  | group inner ih => exact ih all
  | literal key operand => nomatch all

/-- What warnings and the reading of symbols keep is kept by an evaluation. -/
structure Lasting (K : Place → Prop) : Prop where
  warn : ∀ kind place, K place → K (outcome (Eval.warn kind) place).2
  symbol : ∀ name place, K place → K (outcome (Eval.symbol surroundings name) place).2

section Lasting

variable {K : Place → Prop} {expr : Expr}

theorem Lasting.warnable (lasting : Lasting K) : Warnable (Alone K) := fun kind =>
  Paired.modify fun here _ both => ⟨by rw [both.1], lasting.warn kind here both.2⟩

theorem Lasting.plain (lasting : Lasting K) (plain : expr.All (fun _ => True) fun _ => True) :
    ∀ step ∈ Eval.steps surroundings expr, PairedStep (Alone K) (· = ·) step := by
  refine paired_plain (fun name _ => .alone (lasting.symbol name)) (fun place _ => ?_) ?_ plain
  · refine .alone fun place holds => ?_
    rw [outcome_counter]
    exact holds
  · exact .alone fun _ holds => holds

theorem Lasting.run (lasting : Lasting K) (plain : expr.All (fun _ => True) fun _ => True)
    {place : Place} (holds : K place) :
    K (outcome (Eval.run (Eval.steps surroundings expr)) place).2 :=
  (paired_run compatible_eq lasting.warnable (lasting.plain plain) place place ⟨rfl, holds⟩).1.2

/-- Reading an operand leaves mentions behind. -/
theorem lasting_glance (context : Context) : Lasting fun place => Glance context place.2 where
  warn _ _ glance := glance
  symbol name place glance := by
    rw [outcome_symbol]
    exact glance.trans (.mention ..)

end Lasting

theorem run_evaluate (expr : Expr) (context : Context) :
    (expr.evaluate surroundings).run context =
      let (result, progress, later) :=
        outcome (Eval.run (Eval.steps surroundings expr)) ({}, context)
      (result.map fun value => ⟨value, progress.forward, progress.warnings⟩, later) :=
  rfl

/-- The expression that an operand is, if it is one. -/
def operandExpr? (settings : Settings) (text : String) : Option Expr :=
  let tokens := tokenize text.toList settings.flexible
  if tokens.any Token.isError then none else (Expr.parseComplete tokens text.toList).toOption

theorem run_evaluateExpr (expr : Expr) (context : Context) :
    (evaluateExpr expr).run context =
      match (expr.evaluate surroundings).run context with
      | (.error kind, later) => (none, later.register (.error kind))
      | (.ok evaluation, later) =>
        let warned := ((evaluation.warnings.forM warn).run later).2
        (some evaluation, if evaluation.value.isUndefined then
          warned.register (.error .undefinedSymbol) else warned) := by
  unfold evaluateExpr
  rw [StateT.run_bind]
  rcases (expr.evaluate surroundings).run context with ⟨_ | evaluation, later⟩
  · rfl
  · change (evaluation.warnings.forM warn >>= fun _ =>
      if evaluation.value.isUndefined then _ else _ : AsmM _).run later = _
    dsimp only
    split <;> rfl

theorem run_evaluateOperand (text : String) (context : Context) :
    (evaluateOperand text).run context =
      match operandExpr? context.settings text with
      | some expr => (evaluateExpr expr).run context
      | none => (none, context.register (.error .syntaxError)) := by
  unfold evaluateOperand parseOperand operandExpr?
  rw [StateT.run_bind, StateT.run_bind, StateT.run_get, pure_bind]
  dsimp only
  split
  · rfl
  · cases Expr.parseComplete (tokenize text.toList context.settings.flexible) text.toList <;> rfl

theorem run_absoluteOperand (text : String) (context : Context) :
    (absoluteOperand text).run context =
      match (evaluateOperand text).run context with
      | (none, later) => (none, later)
      | (some evaluation, later) =>
        match plainInteger evaluation.value with
        | .ok n => (some n, later)
        | .error none => (none, later)
        | .error (some kind) => (none, later.register (.error kind)) := by
  unfold absoluteOperand
  rw [StateT.run_bind]
  rcases (evaluateOperand text).run context with ⟨_ | evaluation, later⟩
  · rfl
  · change (match plainInteger evaluation.value with
      | .ok n => pure (some n)
      | .error none => pure none
      | .error (some kind) => error kind >>= fun _ => pure none : AsmM (Option Word)).run later = _
    dsimp only
    rcases plainInteger evaluation.value with (_ | kind) | n <;> rfl

theorem hasErrors_error (kind : ErrorKind) (context : Context) :
    (context.register (.error kind)).statement.diagnostics.hasErrors := by
  have listed := Diagnostic.mem_all (.error kind)
  exact List.any_eq_true.mpr ⟨_, List.mem_filter.mpr ⟨listed, by simp⟩, rfl⟩

/-- An operand without a value draws an error. -/
theorem hasErrors_evaluateOperand (text : String) (context : Context)
    (useless : ∀ evaluation, ((evaluateOperand text).run context).1 = some evaluation →
      evaluation.value.isUndefined) :
    ((evaluateOperand text).run context).2.statement.diagnostics.hasErrors := by
  rw [run_evaluateOperand] at useless ⊢
  revert useless
  cases operandExpr? context.settings text with
  | none => exact fun _ => hasErrors_error _ _
  | some expr =>
    dsimp only
    rw [run_evaluateExpr]
    rcases (expr.evaluate surroundings).run context with ⟨_ | evaluation, later⟩
    · exact fun _ => hasErrors_error _ _
    · intro useless
      dsimp only
      rw [if_pos (useless evaluation rfl)]
      exact hasErrors_error _ _

theorem isUndefined_of_plainInteger {value : Value} (silent : plainInteger value = .error none) :
    value.isUndefined := by
  unfold plainInteger at silent
  split at silent
  case isTrue undefined => exact undefined
  · split at silent
    · nomatch silent
    · split at silent <;> nomatch silent

/-- An operand that is refused draws an error. -/
theorem hasErrors_absoluteOperand (text : String) (context : Context)
    (refused : ((absoluteOperand text).run context).1 = none) :
    ((absoluteOperand text).run context).2.statement.diagnostics.hasErrors := by
  have useless := hasErrors_evaluateOperand text context
  rw [run_absoluteOperand] at refused ⊢
  revert useless refused
  rcases (evaluateOperand text).run context with ⟨_ | evaluation, later⟩
  · exact fun _ useless => useless fun _ same => nomatch same
  · dsimp only
    intro refused useless
    rcases result : plainInteger evaluation.value with (_ | kind) | n
    · refine useless fun found same => ?_
      cases same
      exact isUndefined_of_plainInteger result
    · exact hasErrors_error kind later
    · rw [result] at refused
      nomatch refused

end Asm

end CrayAssembler
