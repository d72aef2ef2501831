import CrayAssembler.Proofs.Expr.Displacement
import CrayAssembler.Proofs.Expr.Tree
import CrayAssembler.Proofs.Value.WellFormed

namespace CrayAssembler

namespace Eval

/-- What the surroundings answer while an expression is evaluated, in the order in which they are
asked. Nothing but symbols can be ahead, and a literal without an address ends the evaluation. -/
def answers {m : Type → Type} [Monad m] (env : Surroundings m) : Expr → m (List SymbolRef)
  | .symbol name => do return [← env.symbol name]
  | .number _ => do
    let _ ← env.radix
    return []
  | .based _ | .string _ => return []
  | .location counter => do return [⟨← env.counter counter, false⟩]
  | .unary _ operand => answers env operand
  | .binary _ left right => do
    let first ← answers env left
    let second ← answers env right
    return first ++ second
  | .group inner => answers env inner
  | .literal key operand => do
    match ← env.literal key (held env operand) with
    | .ok value => return [⟨value, false⟩]
    | .error _ => return []

/-- A value has from the answers what an expression takes from them. -/
structure Stems (found : List SymbolRef) (value : Value) : Prop where
  wellFormed : (∀ answer ∈ found, answer.value.WellFormed) → value.WellFormed
  isUndefined : value.isUndefined = found.any (·.value.isUndefined)

section Stems

variable {found more : List SymbolRef} {value left right result : Value} {outcome : Value.Outcome}

theorem stems_used (answer : SymbolRef) :
    Stems [answer] { answer.value with attributes := answer.value.attributes.ofValue } where
  wellFormed formed := (formed answer List.mem_cons_self).ofValue
  isUndefined := (Bool.or_false _).symm

theorem stems_answer (value : Value) (forward : Bool) : Stems [⟨value, forward⟩] value where
  wellFormed formed := formed _ List.mem_cons_self
  isUndefined := (Bool.or_false _).symm

theorem stems_absolute (n : Word) : Stems [] (.absolute n) where
  wellFormed _ := Value.wellFormed_absolute n
  isUndefined := rfl

theorem stems_float (x : Double) : Stems [] (.float x) where
  wellFormed _ := Value.wellFormed_float x
  isUndefined := rfl

theorem Stems.unary (stems : Stems found value) {op : UnaryOp}
    (computed : Value.unary op value = .ok result) : Stems found result where
  wellFormed formed := (stems.wellFormed formed).unary op computed
  isUndefined := (Value.isUndefined_unary computed).trans stems.isUndefined

theorem Stems.binary (first : Stems found left) (second : Stems more right) {op : BinaryOp}
    (computed : Value.binary op left right = .ok outcome) : Stems (found ++ more) outcome.value where
  wellFormed formed := by
    obtain ⟨before, after⟩ := List.forall_mem_append.mp formed
    exact (first.wellFormed before).binary op (second.wellFormed after) computed
  isUndefined := by
    rw [Value.isUndefined_binary computed, first.isUndefined, second.isUndefined, List.any_append]

end Stems

variable {σ : Type} {env : Surroundings (StateM σ)} {expr : Expr} {value : Value}
  {place later : Progress × σ}

/-- What a part of an evaluation has from the answers that it is given: its value, and whether
anything is noticed to be ahead. -/
structure Drawn (questions : StateM σ (List SymbolRef)) (place : Progress × σ) (value : Value)
    (later : Progress × σ) : Prop where
  state : (questions.run place.2).2 = later.2
  stems : Stems (questions.run place.2).1 value
  forward : later.1.forward = (place.1.forward || (questions.run place.2).1.any (·.forward))

/-- Operands that ask for nothing. -/
theorem drawn_alone (stems : Stems [] value) (place : Progress × σ) :
    Drawn (pure []) place value place where
  state := rfl
  stems := stems
  forward := (Bool.or_false _).symm

theorem drawn_symbol (name : Name) (yields : Yields (symbol env name) place value later) :
    Drawn (answers env (.symbol name)) place value later := by
  obtain ⟨found, middle, question, answer⟩ := yields_bind.mp yields
  obtain ⟨rfl, rfl⟩ := yields_lift.mp question
  obtain ⟨rfl, rfl⟩ := yields_use.mp answer
  exact
    { state := rfl
      stems := stems_used _
      forward := congrArg (place.1.forward || ·) (Bool.or_false _).symm }

theorem stems_numeral {text : String} {radix : Nat}
    (yields : Yields (numeral text radix) place value later) : Stems [] value ∧ place = later := by
  unfold numeral at yields
  split at yields
  case h_1 n _ =>
    obtain ⟨rfl, same⟩ := yields_pure.mp yields
    exact ⟨stems_absolute _, same⟩
  case h_2 x _ =>
    obtain ⟨rfl, same⟩ := yields_pure.mp yields
    exact ⟨stems_float x, same⟩
  case h_3 => exact absurd yields not_yields_throw

theorem drawn_number (text : String) (yields : Yields (number env text) place value later) :
    Drawn (answers env (.number text)) place value later := by
  obtain ⟨radix, middle, question, answer⟩ := yields_bind.mp yields
  obtain ⟨rfl, rfl⟩ := yields_lift.mp question
  obtain ⟨stems, rfl⟩ := stems_numeral answer
  exact ⟨rfl, stems, (Bool.or_false _).symm⟩

theorem drawn_characters (constant : CharConstant)
    (yields : Yields (characters constant) place value later) :
    Drawn (pure []) place value later := by
  unfold characters at yields
  split at yields
  case h_1 =>
    obtain ⟨rfl, rfl⟩ := yields_pure.mp yields
    exact drawn_alone (stems_absolute 0) _
  case h_2 word _ =>
    obtain ⟨rfl, rfl⟩ := yields_pure.mp yields
    exact drawn_alone (stems_absolute word) _
  case h_3 => exact absurd yields not_yields_throw

theorem drawn_counter (counter : Counter)
    (yields : Yields (liftM (env.counter counter)) place value later) :
    Drawn (answers env (.location counter)) place value later := by
  obtain ⟨rfl, rfl⟩ := yields_lift.mp yields
  exact ⟨rfl, stems_answer _ _, (Bool.or_false _).symm⟩

theorem drawn_literal (key : String) (operand : Expr)
    (yields : Yields (literal env key (held env operand)) place value later) :
    Drawn (answers env (.literal key operand)) place value later := by
  obtain ⟨found, middle, question, answer⟩ := yields_bind.mp yields
  obtain ⟨asked, rfl⟩ := yields_lift.mp question
  cases found with
  | error kind => exact absurd answer not_yields_throw
  | ok address =>
    obtain ⟨rfl, rfl⟩ := yields_pure.mp answer
    have given : (answers env (.literal key operand)).run place.2 =
        ([⟨address, false⟩], ((env.literal key (held env operand)).run place.2).2) := by
      unfold answers
      rw [StateT.run_bind]
      show StateT.run (match ((env.literal key (held env operand)).run place.2).1 with
        | .ok value => _
        | .error _ => _) _ = _
      rw [asked]
      rfl
    constructor
    · rw [given]
    · rw [given]
      exact stems_answer address false
    · rw [given]
      exact (Bool.or_false _).symm

/-- A warning that is noted on the way changes nothing else. -/
theorem yields_warn {kind : WarningKind} {done : PUnit} (yields : Yields (warn kind) place done later) :
    later.1.forward = place.1.forward ∧ later.2 = place.2 := by
  rw [← yields_modify.mp yields]
  refine ⟨?_, rfl⟩
  dsimp only
  split <;> rfl

theorem outcome_of_yields {op : BinaryOp} {left right : Value}
    (yields : Yields (binary op left right) place value later) :
    (∃ mixed, Value.binary op left right = .ok ⟨value, mixed⟩) ∧
      later.1.forward = place.1.forward ∧ later.2 = place.2 := by
  unfold binary at yields
  cases computed : Value.binary op left right with
  | error kind =>
    rw [computed] at yields
    exact absurd yields not_yields_throw
  | ok outcome =>
    obtain ⟨result, mixed⟩ := outcome
    rw [computed] at yields
    cases mixed with
    | true =>
      obtain ⟨_, middle, warned, returned⟩ := yields_bind.mp yields
      obtain ⟨rfl, rfl⟩ := yields_pure.mp returned
      exact ⟨⟨true, rfl⟩, yields_warn warned⟩
    | false =>
      obtain ⟨rfl, rfl⟩ := yields_pure.mp yields
      exact ⟨⟨false, rfl⟩, rfl, rfl⟩

theorem tree_literal {m : Type → Type} [Monad m] [LawfulMonad m] (env : Surroundings m) (key : String)
    (operand : Expr) : tree env (.literal key operand) = literal env key (held env operand) := by
  have inner := run_steps env operand
  cases operand <;> simp only [tree, held, inner]

/-- Values, and what is ahead, stem from the answers. -/
theorem drawn_tree (yields : Yields (tree env expr) place value later) :
    Drawn (answers env expr) place value later := by
  induction expr generalizing place value later with
  | symbol name => exact drawn_symbol name yields
  | number text => exact drawn_number text yields
  | based n =>
    obtain ⟨rfl, rfl⟩ := yields_pure.mp yields
    exact drawn_alone (stems_absolute n) _
  | string constant => exact drawn_characters constant yields
  | location counter => exact drawn_counter counter yields
  | unary op operand ih =>
    obtain ⟨found, middle, first, applied⟩ := yields_bind.mp yields
    obtain ⟨computed, rfl⟩ := yields_unary.mp applied
    have drawn := ih first
    exact ⟨drawn.state, drawn.stems.unary computed, drawn.forward⟩
  | binary op left right first second =>
    obtain ⟨leftValue, middle, leftYields, rest⟩ := yields_bind.mp yields
    obtain ⟨rightValue, between, rightYields, applied⟩ := yields_bind.mp rest
    obtain ⟨⟨mixed, computed⟩, forward, state⟩ := outcome_of_yields applied
    have before := first leftYields
    have after := second rightYields
    have given : (answers env (.binary op left right)).run place.2 =
        (((answers env left).run place.2).1 ++ ((answers env right).run middle.2).1,
          ((answers env right).run middle.2).2) := by
      rw [← before.state]
      rfl
    constructor
    · rw [given, state]
      exact after.state
    · rw [given]
      exact before.stems.binary after.stems computed
    · rw [given, forward, after.forward, before.forward, List.any_append, Bool.or_assoc]
  | group inner ih => exact ih yields
  | literal key operand ih =>
    rw [tree_literal] at yields
    exact drawn_literal key operand yields

end Eval

/-- If an expression has a value, then it is well formed if all are that the surroundings give for
symbols, counters and literals, it is undefined if and only if one of those is, and it refers ahead if
and only if a symbol does. -/
theorem Expr.evaluate_stems {σ : Type} {env : Surroundings (StateM σ)} {expr : Expr}
    {state later : σ} {evaluation : Evaluation}
    (evaluated : (expr.evaluate env).run state = (.ok evaluation, later)) :
    ∃ found, (Eval.answers env expr).run state = (found, later) ∧
      ((∀ answer ∈ found, answer.value.WellFormed) → evaluation.value.WellFormed) ∧
      (evaluation.value.isUndefined = true ↔
        ∃ answer ∈ found, answer.value.isUndefined = true) ∧
      (evaluation.forward = true ↔ ∃ answer ∈ found, answer.forward = true) := by
  obtain ⟨progress, yields, forward, -⟩ := Eval.collect_run.mp evaluated
  rw [Eval.run_steps] at yields
  have drawn := Eval.drawn_tree yields
  refine ⟨_, Prod.ext rfl drawn.state, drawn.stems.wellFormed, ?_, ?_⟩
  · rw [drawn.stems.isUndefined, List.any_eq_true]
  · rw [← forward, drawn.forward, Bool.false_or, List.any_eq_true]

/-- A symbol ahead, the counter, and the literal that the symbol is put in. -/
def Eval.leavesExpr : Expr :=
  .binary .add (.symbol ⟨none, "X"⟩)
    (.binary .subtract (.literal "=X" (.symbol ⟨none, "X"⟩)) (.location .location))

/-- Surroundings in which every symbol is the same external ahead, and a literal has an address if
what it is to hold has a value. -/
def Eval.externalSurroundings : Surroundings (StateM Nat) where
  symbol _ := do
    modify (· + 1)
    return ⟨.ofExternal 2, true⟩
  counter _ := return .address .word 0 3 true
  literal _ operand := do
    match operand with
    | .characters _ => return .ok (.address .word 0 0 true)
    | .computed evaluation => return (← evaluation).map fun _ => .address .word 0 5 true
  radix := return 10

theorem Expr.evaluate_stems_leaves :
    ∃ evaluation : Evaluation,
      (Eval.leavesExpr.evaluate Eval.externalSurroundings).run 0 = (.ok evaluation, 2) ∧
      evaluation.value.WellFormed ∧ evaluation.value.isUndefined = false ∧
      evaluation.forward = true := by
  have evaluated : (Eval.leavesExpr.evaluate Eval.externalSurroundings).run 0 =
      (.ok ⟨{ Value.ofExternal 2 with numeric := 2 }, true, []⟩, 2) := rfl
  obtain ⟨found, answered, formed, undefined, forward⟩ := Expr.evaluate_stems evaluated
  have answers : found = [⟨.ofExternal 2, true⟩, ⟨.address .word 0 5 true, false⟩,
      ⟨.address .word 0 3 true, false⟩] := (Prod.ext_iff.mp answered).1.symm
  subst answers
  refine ⟨_, evaluated, formed (by decide), ?_, forward.mpr ⟨_, List.mem_cons_self, rfl⟩⟩
  exact eq_false_of_ne_true fun unknown => absurd (undefined.mp unknown) (by decide)

end CrayAssembler
