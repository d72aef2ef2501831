import CrayAssembler.Expr.Eval
import CrayAssembler.Proofs.Value.Combination
import Mathlib.Data.List.Forall2

namespace CrayAssembler

/-- A value and what it is after the displacement of a section; a relocatable one counts in some
unit. -/
def Value.Moves (id : SectionId) (words : Int) (value other : Value) : Prop :=
  other = value.displaced id words ∧ value.Measured

/-- Asked in related states, two actions answer what is related and end in related states. -/
def Answers {σ τ α : Type} (R : σ → τ → Prop) (action : StateM σ α) (other : StateM τ α)
    (S : α → α → Prop) : Prop :=
  ∀ here there, R here there →
    S (action.run here).1 (other.run there).1 ∧ R (action.run here).2 (other.run there).2

namespace Eval

/-- What a literal of an expression is to hold. -/
def held {m : Type → Type} [Monad m] (env : Surroundings m) : Expr → LiteralOperand m
  | .string constant => .characters constant
  | operand => .computed (collect (run (steps env operand)))

end Eval

/-- Surroundings before and after the displacement of a section: every symbol, counter and literal
moves with it, and nothing else changes. -/
structure Surroundings.Displaced {σ τ : Type} (id : SectionId) (words : Int) (R : σ → τ → Prop)
    (env : Surroundings (StateM σ)) (moved : Surroundings (StateM τ)) : Prop where
  symbol : ∀ name, Answers R (env.symbol name) (moved.symbol name) fun found other =>
    found.value.Moves id words other.value ∧ other.forward = found.forward
  counter : ∀ counter, Answers R (env.counter counter) (moved.counter counter)
    (Value.Moves id words)
  literal : ∀ key operand, Answers R (env.literal key (Eval.held env operand))
    (moved.literal key (Eval.held moved operand)) fun found other =>
      ∀ value, found = .ok value → ∃ address, other = .ok address ∧ value.Moves id words address
  radix : Answers R env.radix moved.radix (· = ·)

namespace Eval

section Yielding

variable {σ α β : Type} {place later : Progress × σ}

/-- A part of an evaluation gives a value. Where it starts and ends is told by what was noticed and
by the state of the surroundings. -/
def Yields (read : EvalM (StateM σ) α) (place : Progress × σ) (value : α) (later : Progress × σ) :
    Prop :=
  (read.run.run place.1).run place.2 = ((.ok value, later.1), later.2)

theorem yields_pure {given value : α} :
    Yields (pure given) place value later ↔ given = value ∧ place = later := by
  obtain ⟨progress, state⟩ := later
  constructor
  · rintro ⟨⟩
    exact ⟨rfl, rfl⟩
  · rintro ⟨rfl, ⟨⟩⟩
    rfl

theorem yields_lift {action : StateM σ α} {value : α} :
    Yields (liftM action) place value later ↔
      (action.run place.2).1 = value ∧ (place.1, (action.run place.2).2) = later := by
  obtain ⟨progress, state⟩ := later
  constructor
  · rintro ⟨⟩
    exact ⟨rfl, rfl⟩
  · rintro ⟨rfl, ⟨⟩⟩
    rfl

theorem yields_modify {change : Progress → Progress} {value : PUnit} :
    Yields (modify change) place value later ↔ (change place.1, place.2) = later := by
  obtain ⟨progress, state⟩ := later
  constructor
  · rintro ⟨⟩
    rfl
  · rintro ⟨⟩
    rfl

theorem not_yields_throw {kind : ErrorKind} {value : α} :
    ¬Yields (throw kind) place value later :=
  nofun

theorem yields_bind {read : EvalM (StateM σ) α} {next : α → EvalM (StateM σ) β} {value : β} :
    Yields (read >>= next) place value later ↔
      ∃ first middle, Yields read place first middle ∧ Yields (next first) middle value later := by
  unfold Yields
  rw [ExceptT.run_bind, StateT.run_bind, StateT.run_bind]
  rcases (read.run.run place.1).run place.2 with ⟨⟨result, progress⟩, state⟩
  constructor
  · intro yields
    cases result with
    | error kind => nomatch yields
    | ok first => exact ⟨first, (progress, state), rfl, yields⟩
  · rintro ⟨first, middle, ⟨⟩, rest⟩
    exact rest

end Yielding

section Operands

variable {σ τ : Type} {id : SectionId} {words : Int} {R : σ → τ → Prop}
  {env : Surroundings (StateM σ)} {moved : Surroundings (StateM τ)}

/-- An operand is read without a warning. -/
def Quiet (read : EvalM (StateM σ) Value) : Prop :=
  ∀ place value later, Yields read place value later → later.1.warnings = place.1.warnings

theorem quiet_pure (value : Value) : Quiet (pure value : EvalM (StateM σ) Value) := by
  intro place given later yields
  rw [(yields_pure.mp yields).2]

theorem quiet_throw (kind : ErrorKind) : Quiet (throw kind : EvalM (StateM σ) Value) :=
  fun _ _ _ yields => absurd yields not_yields_throw

/-- An operand that moves along. -/
structure Reads (id : SectionId) (words : Int) (R : σ → τ → Prop) (read : EvalM (StateM σ) Value)
    (other : EvalM (StateM τ) Value) : Prop where
  quiet : Quiet read
  follows : ∀ place there value later, R place.2 there → Yields read place value later →
    value.Measured ∧
      ∃ after, Yields other (place.1, there) (value.displaced id words) (later.1, after) ∧
        R later.2 after

theorem reads_moves {value other : Value} (moves : value.Moves id words other) :
    Reads id words R (pure value) (pure other) := by
  obtain ⟨rfl, measured⟩ := moves
  refine ⟨quiet_pure value, fun place there given later related yields => ?_⟩
  obtain ⟨rfl, rfl⟩ := yields_pure.mp yields
  exact ⟨measured, there, rfl, related⟩

theorem reads_rigid {value : Value} (rigid : value.Rigid) :
    Reads id words R (pure value) (pure value) :=
  reads_moves ⟨rigid.displaced.symm, rigid.measured⟩

theorem reads_throw (kind : ErrorKind) : Reads id words R (throw kind) (throw kind) :=
  ⟨quiet_throw kind, fun _ _ _ _ _ yields => absurd yields not_yields_throw⟩

/-- What the surroundings answer decides how the operand is read on. -/
theorem Reads.bind {α : Type} {action : StateM σ α} {other : StateM τ α}
    {next : α → EvalM (StateM σ) Value} {following : α → EvalM (StateM τ) Value}
    {S : α → α → Prop} (quiet : ∀ value, Quiet (next value)) (answers : Answers R action other S)
    (rest : ∀ value result, S value result → Reads id words R (next value) (following result)) :
    Reads id words R (liftM action >>= next) (liftM other >>= following) := by
  constructor
  · intro place value later yields
    obtain ⟨found, middle, question, answer⟩ := yields_bind.mp yields
    obtain ⟨rfl, rfl⟩ := yields_lift.mp question
    exact quiet _ (place.1, (action.run place.2).2) value later answer
  · intro place there value later related yields
    obtain ⟨asked, between⟩ := answers place.2 there related
    obtain ⟨found, middle, question, answer⟩ := yields_bind.mp yields
    obtain ⟨rfl, rfl⟩ := yields_lift.mp question
    obtain ⟨measured, after, given, final⟩ := (rest _ _ asked).follows
      (place.1, (action.run place.2).2) (other.run there).2 value later between answer
    exact ⟨measured, after, yields_bind.mpr ⟨_, _, yields_lift.mpr ⟨rfl, rfl⟩, given⟩, final⟩

/-- A symbol is used once it is found. -/
def use {m : Type → Type} [Monad m] (found : SymbolRef) : EvalM m Value := do
  modify fun progress => { progress with forward := progress.forward || found.forward }
  return { found.value with attributes := found.value.attributes.ofValue }

theorem yields_use {found : SymbolRef} {place later : Progress × σ} {value : Value} :
    Yields (use found) place value later ↔
      { found.value with attributes := found.value.attributes.ofValue } = value ∧
        ({ place.1 with forward := place.1.forward || found.forward }, place.2) = later := by
  constructor
  · intro yields
    obtain ⟨_, middle, noted, returned⟩ := yields_bind.mp yields
    cases yields_modify.mp noted
    exact yields_pure.mp returned
  · intro both
    exact yields_bind.mpr ⟨⟨⟩, _, yields_modify.mpr rfl, yields_pure.mpr both⟩

theorem quiet_use (found : SymbolRef) : Quiet (use found : EvalM (StateM σ) Value) := by
  intro place value later yields
  rw [← (yields_use.mp yields).2]

theorem reads_symbol (displaced : env.Displaced id words R moved) (name : Name) :
    Reads id words R (symbol env name) (symbol moved name) := by
  refine .bind quiet_use (displaced.symbol name) fun found other same => ?_
  obtain ⟨⟨value, measured⟩, forward⟩ := same
  refine ⟨quiet_use found, fun place there given later related yields => ?_⟩
  obtain ⟨rfl, rfl⟩ := yields_use.mp yields
  refine ⟨measured, there, yields_use.mpr ?_, related⟩
  rw [value, forward]
  exact ⟨rfl, rfl⟩

/-- A number is read once the radix is known. -/
def numeral {m : Type → Type} [Monad m] (text : String) (radix : Nat) : EvalM m Value :=
  match Numeral.read text.toList radix with
  | .ok (.integer n) => return .absolute n
  | .ok (.float x) => return .float x
  | .error _ => throw .syntaxError

theorem reads_numeral (text : String) (radix : Nat) :
    Reads id words R (numeral text radix) (numeral text radix) := by
  unfold numeral
  split
  · exact reads_rigid (Value.rigid_absolute _)
  · exact reads_rigid (Value.rigid_float _)
  · exact reads_throw _

theorem reads_number (displaced : env.Displaced id words R moved) (text : String) :
    Reads id words R (number env text) (number moved text) := by
  have rest : ∀ radix other, radix = other →
      Reads id words R (numeral text radix) (numeral text other) := by
    rintro radix _ rfl
    exact reads_numeral text radix
  exact .bind (fun radix => (rest radix radix rfl).quiet) displaced.radix rest

theorem reads_characters (constant : CharConstant) :
    Reads id words R (characters constant) (characters constant) := by
  unfold characters
  split
  · exact reads_rigid (Value.rigid_absolute _)
  · exact reads_rigid (Value.rigid_absolute _)
  · exact reads_throw _

theorem reads_counter (displaced : env.Displaced id words R moved) (counter : Counter) :
    Reads id words R (env.counter counter : StateM σ Value)
      (moved.counter counter : StateM τ Value) := by
  rw [← bind_pure (liftM (env.counter counter)), ← bind_pure (liftM (moved.counter counter))]
  exact .bind quiet_pure (displaced.counter counter) fun _ _ => reads_moves

theorem reads_literal (displaced : env.Displaced id words R moved) (key : String) (operand : Expr) :
    Reads id words R (literal env key (held env operand))
      (literal moved key (held moved operand)) := by
  refine .bind (fun found => ?_) (displaced.literal key operand) fun found other same => ?_
  · cases found with
    | error kind => exact quiet_throw kind
    | ok value => exact quiet_pure value
  · cases found with
    | error kind => exact ⟨quiet_throw kind, fun _ _ _ _ _ yields => absurd yields not_yields_throw⟩
    | ok value =>
      obtain ⟨address, rfl, moves⟩ := same value rfl
      exact reads_moves moves

end Operands

section Steps

variable {σ τ : Type} {id : SectionId} {words : Int} {R : σ → τ → Prop}
  {env : Surroundings (StateM σ)} {moved : Surroundings (StateM τ)}

/-- One step of an evaluation and the same step of the evaluation that moves along. -/
inductive Alongside (id : SectionId) (words : Int) (R : σ → τ → Prop) :
    Step (StateM σ) → Step (StateM τ) → Prop
  | operand {read other} (reads : Reads id words R read other) :
      Alongside id words R (.operand read) (.operand other)
  | unary (op : UnaryOp) : Alongside id words R (.unary op) (.unary op)
  | binary (op : BinaryOp) : Alongside id words R (.binary op) (.binary op)

theorem steps_literal {m : Type → Type} [Monad m] (env : Surroundings m) (key : String)
    (operand : Expr) :
    steps env (.literal key operand) = [.operand (literal env key (held env operand))] := by
  cases operand <;> rfl

theorem alongside_steps (displaced : env.Displaced id words R moved) (expr : Expr) :
    List.Forall₂ (Alongside id words R) (steps env expr) (steps moved expr) := by
  have alone {read other} (reads : Reads id words R read other) :
      List.Forall₂ (Alongside id words R) [.operand read] [.operand other] :=
    .cons (.operand reads) .nil
  induction expr with
  | symbol name => exact alone (reads_symbol displaced name)
  | number text => exact alone (reads_number displaced text)
  | based value => exact alone (reads_rigid (Value.rigid_absolute value))
  | string constant => exact alone (reads_characters constant)
  | location counter => exact alone (reads_counter displaced counter)
  | unary op operand ih => exact List.rel_append ih (.cons (.unary op) .nil)
  | binary op left right first second =>
    exact List.rel_append (List.rel_append first second) (.cons (.binary op) .nil)
  | group inner ih => exact ih
  | literal key operand =>
    rw [steps_literal, steps_literal]
    exact alone (reads_literal displaced key operand)

theorem yields_unary {op : UnaryOp} {value result : Value} {place later : Progress × σ} :
    Yields (unary op value) place result later ↔
      Value.unary op value = .ok result ∧ place = later := by
  unfold unary
  cases Value.unary op value with
  | error kind => exact ⟨fun yields => absurd yields not_yields_throw, nofun⟩
  | ok found => rw [Except.ok.injEq]; exact yields_pure

theorem warnings_warn (kind : WarningKind) {value : PUnit} {place later : Progress × σ}
    (yields : Yields (warn kind) place value later) :
    kind ∈ later.1.warnings ∧ place.1.warnings ⊆ later.1.warnings := by
  rw [← yields_modify.mp yields]
  dsimp only
  split
  case isTrue noted => exact ⟨List.contains_iff_mem.mp noted, List.Subset.refl _⟩
  case isFalse => exact ⟨List.mem_append_right _ List.mem_cons_self, List.subset_append_left _ _⟩

/-- Operands of different kinds, and nothing else, are warned of. -/
theorem binary_of_yields {op : BinaryOp} {left right result : Value} {place later : Progress × σ}
    (yields : Yields (binary op left right) place result later) :
    place.1.warnings ⊆ later.1.warnings ∧
      (.expressionElement ∉ later.1.warnings →
        Value.binary op left right = .ok ⟨result, false⟩ ∧ place = later) := by
  unfold binary at yields
  cases computed : Value.binary op left right with
  | error kind =>
    rw [computed] at yields
    exact absurd yields not_yields_throw
  | ok outcome =>
    obtain ⟨value, mixed⟩ := outcome
    rw [computed] at yields
    cases mixed with
    | true =>
      obtain ⟨_, middle, warned, returned⟩ := yields_bind.mp yields
      obtain ⟨rfl, rfl⟩ := yields_pure.mp returned
      obtain ⟨noted, grown⟩ := warnings_warn .expressionElement warned
      exact ⟨grown, fun unnoted => absurd noted unnoted⟩
    | false =>
      obtain ⟨rfl, rfl⟩ := yields_pure.mp yields
      exact ⟨List.Subset.refl _, fun _ => ⟨rfl, rfl⟩⟩

theorem yields_binary {op : BinaryOp} {left right result : Value}
    (computed : Value.binary op left right = .ok ⟨result, false⟩) (place : Progress × σ) :
    Yields (binary op left right) place result place := by
  unfold binary
  rw [computed]
  exact yields_pure.mpr ⟨rfl, rfl⟩

/-- A step adds to the warnings at most. -/
theorem warnings_step {step : Step (StateM σ)} {other : Step (StateM τ)}
    (alongside : Alongside id words R step other) {stack result : List Value}
    {place later : Progress × σ} (yields : Yields (Eval.step stack step) place result later) :
    place.1.warnings ⊆ later.1.warnings := by
  cases alongside with
  | operand reads =>
    obtain ⟨value, middle, read, pushed⟩ := yields_bind.mp yields
    obtain ⟨-, rfl⟩ := yields_pure.mp pushed
    rw [reads.quiet place value middle read]
    exact List.Subset.refl _
  | unary op =>
    cases stack with
    | nil => exact absurd yields not_yields_throw
    | cons value rest =>
      obtain ⟨value, middle, computed, pushed⟩ := yields_bind.mp yields
      obtain ⟨-, rfl⟩ := yields_pure.mp pushed
      obtain ⟨-, rfl⟩ := yields_unary.mp computed
      exact List.Subset.refl _
  | binary op =>
    match stack with
    | [] => exact absurd yields not_yields_throw
    | [_] => exact absurd yields not_yields_throw
    | right :: left :: rest =>
      obtain ⟨value, middle, computed, pushed⟩ := yields_bind.mp yields
      obtain ⟨-, rfl⟩ := yields_pure.mp pushed
      exact (binary_of_yields computed).1

theorem warnings_steps {todo : List (Step (StateM σ))} {other : List (Step (StateM τ))}
    (alongside : List.Forall₂ (Alongside id words R) todo other) {stack result : List Value}
    {place later : Progress × σ} (yields : Yields (todo.foldlM Eval.step stack) place result later) :
    place.1.warnings ⊆ later.1.warnings := by
  induction alongside generalizing stack place with
  | nil =>
    obtain ⟨-, rfl⟩ := yields_pure.mp yields
    exact List.Subset.refl _
  | cons first rest ih =>
    rw [List.foldlM_cons] at yields
    obtain ⟨_, _, stepped, remaining⟩ := yields_bind.mp yields
    exact List.Subset.trans (warnings_step first stepped) (ih remaining)

/-- One step keeps the values on the stack moving along. -/
theorem step_displaced {step : Step (StateM σ)} {other : Step (StateM τ)}
    (alongside : Alongside id words R step other) {stack result : List Value}
    (measured : ∀ value ∈ stack, value.Measured) {place later : Progress × σ} {there : τ}
    (related : R place.2 there)
    (unwrapped : ∀ op value rest, step = .unary op → stack = value :: rest →
      value.Unwrapped id words op)
    (uniform : .expressionElement ∉ later.1.warnings)
    (yields : Yields (Eval.step stack step) place result later) :
    (∀ value ∈ result, value.Measured) ∧
      ∃ after, Yields (Eval.step (stack.map (·.displaced id words)) other) (place.1, there)
        (result.map (·.displaced id words)) (later.1, after) ∧ R later.2 after := by
  cases alongside with
  | operand reads =>
    obtain ⟨value, middle, read, pushed⟩ := yields_bind.mp yields
    obtain ⟨rfl, rfl⟩ := yields_pure.mp pushed
    obtain ⟨known, after, given, final⟩ := reads.follows place there value middle related read
    refine ⟨List.forall_mem_cons.mpr ⟨known, measured⟩, after, ?_, final⟩
    exact yields_bind.mpr ⟨_, _, given, yields_pure.mpr ⟨rfl, rfl⟩⟩
  | unary op =>
    cases stack with
    | nil => exact absurd yields not_yields_throw
    | cons value rest =>
      obtain ⟨found, middle, computed, pushed⟩ := yields_bind.mp yields
      obtain ⟨rfl, rfl⟩ := yields_pure.mp pushed
      obtain ⟨result, rfl⟩ := yields_unary.mp computed
      obtain ⟨top, below⟩ := List.forall_mem_cons.mp measured
      obtain ⟨given, known⟩ := Value.unary_displaced top (unwrapped op value rest rfl rfl) result
      refine ⟨List.forall_mem_cons.mpr ⟨known, below⟩, there, ?_, related⟩
      exact yields_bind.mpr ⟨_, _, yields_unary.mpr ⟨given, rfl⟩, yields_pure.mpr ⟨rfl, rfl⟩⟩
  | binary op =>
    match stack with
    | [] => exact absurd yields not_yields_throw
    | [_] => exact absurd yields not_yields_throw
    | right :: left :: rest =>
      obtain ⟨found, middle, computed, pushed⟩ := yields_bind.mp yields
      obtain ⟨rfl, rfl⟩ := yields_pure.mp pushed
      obtain ⟨result, rfl⟩ := (binary_of_yields computed).2 uniform
      obtain ⟨top, under⟩ := List.forall_mem_cons.mp measured
      obtain ⟨next, below⟩ := List.forall_mem_cons.mp under
      obtain ⟨given, known⟩ := Value.binary_displaced next top result rfl
      refine ⟨List.forall_mem_cons.mpr ⟨known, below⟩, there, ?_, related⟩
      exact yields_bind.mpr ⟨_, _, yields_binary given _, yields_pure.mpr ⟨rfl, rfl⟩⟩

/-- The steps that are left keep the values moving along, if those that are done did. -/
theorem steps_displaced {done todo : List (Step (StateM σ))} {other : List (Step (StateM τ))}
    (alongside : List.Forall₂ (Alongside id words R) todo other) {stack result : List Value}
    (measured : ∀ value ∈ stack, value.Measured) {start place later : Progress × σ} {there : τ}
    (related : R place.2 there) (begun : Yields (done.foldlM Eval.step []) start stack place)
    (unwrapped : ∀ before op after value rest middle, done ++ todo = before ++ .unary op :: after →
      Yields (before.foldlM Eval.step []) start (value :: rest) middle →
        value.Unwrapped id words op)
    (uniform : .expressionElement ∉ later.1.warnings)
    (yields : Yields (todo.foldlM Eval.step stack) place result later) :
    ∃ after, Yields (other.foldlM Eval.step (stack.map (·.displaced id words))) (place.1, there)
      (result.map (·.displaced id words)) (later.1, after) ∧ R later.2 after := by
  induction alongside generalizing done stack place there with
  | nil =>
    obtain ⟨rfl, rfl⟩ := yields_pure.mp yields
    exact ⟨there, rfl, related⟩
  | @cons step other todo others first rest ih =>
    rw [List.foldlM_cons] at yields
    obtain ⟨next, middle, stepped, remaining⟩ := yields_bind.mp yields
    have silent : .expressionElement ∉ middle.1.warnings := fun noted =>
      uniform (warnings_steps rest remaining noted)
    obtain ⟨known, between, given, joined⟩ := step_displaced first measured related
      (fun op value others same top => unwrapped done op todo value others place
        (by rw [same]) (top ▸ begun)) silent stepped
    have advanced : Yields ((done ++ [step]).foldlM Eval.step []) start next middle := by
      rw [List.foldlM_append]
      exact yields_bind.mpr ⟨stack, place, begun, yields_bind.mpr ⟨next, middle, stepped, rfl⟩⟩
    obtain ⟨after, finished, final⟩ := ih known joined advanced
      (by rwa [List.append_assoc]) remaining
    refine ⟨after, ?_, final⟩
    rw [List.foldlM_cons]
    exact yields_bind.mpr ⟨_, _, given, finished⟩

/-- A unary operator of an expression is applied to this value. -/
def Applies (env : Surroundings (StateM σ)) (expr : Expr) (state : σ) (op : UnaryOp)
    (value : Value) : Prop :=
  ∃ before after rest place, steps env expr = before ++ .unary op :: after ∧
    Yields (before.foldlM step []) ({}, state) (value :: rest) place

theorem yields_run {steps : List (Step (StateM σ))} {value : Value} {place later : Progress × σ} :
    Yields (run steps) place value later ↔
      Yields (steps.foldlM step []) place [value] later := by
  constructor
  · intro yields
    obtain ⟨stack, middle, ran, returned⟩ := yields_bind.mp yields
    match stack with
    | [] => exact absurd returned not_yields_throw
    | [top] =>
      obtain ⟨rfl, rfl⟩ := yields_pure.mp returned
      exact ran
    | _ :: _ :: _ => exact absurd returned not_yields_throw
  · intro ran
    exact yields_bind.mpr ⟨[value], later, ran, yields_pure.mpr ⟨rfl, rfl⟩⟩

theorem run_displaced {expr : Expr} {value : Value} {here : σ} {there : τ} {later : Progress × σ}
    (displaced : env.Displaced id words R moved) (related : R here there)
    (unwrapped : ∀ op value, Applies env expr here op value → value.Unwrapped id words op)
    (uniform : .expressionElement ∉ later.1.warnings)
    (yields : Yields (run (steps env expr)) ({}, here) value later) :
    ∃ after, Yields (run (steps moved expr)) ({}, there) (value.displaced id words)
      (later.1, after) ∧ R later.2 after := by
  have start : Yields (([] : List (Step (StateM σ))).foldlM step []) ({}, here) [] ({}, here) := rfl
  obtain ⟨after, given, final⟩ := steps_displaced (alongside_steps displaced expr)
    (List.forall_mem_nil _) related start
    (fun before op rest value others place split ran =>
      unwrapped op value ⟨before, rest, others, place, split, ran⟩)
    uniform (yields_run.mp yields)
  exact ⟨after, yields_run.mpr given, final⟩

end Steps

theorem collect_run {σ : Type} {evaluation : EvalM (StateM σ) Value} {state later : σ}
    {result : Evaluation} :
    (collect evaluation).run state = (.ok result, later) ↔
      ∃ progress, Yields evaluation ({}, state) result.value (progress, later) ∧
        progress.forward = result.forward ∧ progress.warnings = result.warnings := by
  have collected : (collect evaluation).run state =
      (((evaluation.run.run {}).run state).1.1.map fun value =>
        ⟨value, ((evaluation.run.run {}).run state).1.2.forward,
          ((evaluation.run.run {}).run state).1.2.warnings⟩,
        ((evaluation.run.run {}).run state).2) := rfl
  obtain ⟨given, forward, warnings⟩ := result
  rw [collected]
  unfold Yields
  rcases (evaluation.run.run {}).run state with ⟨⟨value, progress⟩, state⟩
  cases value with
  | error kind => exact ⟨nofun, fun ⟨_, failed, _⟩ => nomatch failed⟩
  | ok value =>
    constructor
    · rintro ⟨⟩
      exact ⟨progress, rfl, rfl, rfl⟩
    · rintro ⟨_, ran, rfl, rfl⟩
      cases ran
      rfl

end Eval

/-- Evaluation goes along with the displacement of a section, as long as all addresses that are
added, subtracted or multiplied agree in kind and no address that is narrowed leaves the word. -/
theorem Expr.evaluate_displaced {σ τ : Type} {R : σ → τ → Prop} {env : Surroundings (StateM σ)}
    {moved : Surroundings (StateM τ)} {id : SectionId} {words : Int} {expr : Expr}
    {here later : σ} {there : τ} {evaluation : Evaluation}
    (displaced : env.Displaced id words R moved) (related : R here there)
    (evaluated : (expr.evaluate env).run here = (.ok evaluation, later))
    (uniform : .expressionElement ∉ evaluation.warnings)
    (unwrapped : ∀ op value, Eval.Applies env expr here op value → value.Unwrapped id words op) :
    ∃ after, (expr.evaluate moved).run there =
      (.ok { evaluation with value := evaluation.value.displaced id words }, after) ∧
        R later after := by
  obtain ⟨progress, yields, forward, warnings⟩ := Eval.collect_run.mp evaluated
  rw [← warnings] at uniform
  obtain ⟨after, given, final⟩ := Eval.run_displaced displaced related unwrapped uniform yields
  exact ⟨after, Eval.collect_run.mpr ⟨progress, given, forward, warnings⟩, final⟩

section Sample

/-- Surroundings in which every symbol is parcel 40 of section 0, the counters stand at its word 10
and literals are in section 1. The section lies the given number of words further on. -/
def sampleSurroundings (offset : Word) : Surroundings (StateM Unit) where
  symbol _ := return ⟨.address .parcel 0 (40 + 4 * offset) true, false⟩
  counter _ := return .address .word 0 (10 + offset) true
  literal _ _ := return .ok (.address .word 1 5 true)
  radix := return 10

/-- Twice the word of a symbol, counted from here. -/
def sampleExpr : Expr :=
  .binary .subtract (.binary .multiply (.based 2) (.unary .wordAddress (.symbol ⟨none, "L"⟩)))
    (.location .location)

theorem displaced_sampleSurroundings :
    (sampleSurroundings 0).Displaced 0 3 (fun _ _ => True) (sampleSurroundings 3) where
  symbol _ _ _ _ := ⟨⟨⟨rfl, fun _ => nofun⟩, rfl⟩, trivial⟩
  counter _ _ _ _ := ⟨⟨rfl, fun _ => nofun⟩, trivial⟩
  literal _ _ _ _ _ := by
    refine ⟨fun value found => ⟨value, found, ?_⟩, trivial⟩
    cases found
    exact ⟨rfl, fun _ => nofun⟩
  radix _ _ _ := ⟨rfl, trivial⟩

/-- Only the symbol is narrowed. -/
theorem applies_sampleExpr {op : UnaryOp} {value : Value}
    (applies : Eval.Applies (sampleSurroundings 0) sampleExpr () op value) :
    value = .address .parcel 0 40 true := by
  obtain ⟨before, after, rest, ⟨progress, state⟩, split, ran⟩ := applies
  match before with
  | [] => nomatch split
  | [_] => nomatch split
  | [_, _] =>
    cases split
    cases ran
    rfl
  | [_, _, _] => nomatch split
  | [_, _, _, _] => nomatch split
  | [_, _, _, _, _] => nomatch split
  | _ :: _ :: _ :: _ :: _ :: _ :: others =>
    have length : 0 = (others ++ .unary op :: after).length := congrArg (List.length · - 6) split
    rw [List.length_append, List.length_cons] at length
    omega

theorem Expr.evaluate_displaced_sampleExpr :
    (sampleExpr.evaluate (sampleSurroundings 0)).run () =
        (.ok ⟨.address .word 0 10 true, false, []⟩, ()) ∧
      (sampleExpr.evaluate (sampleSurroundings 3)).run () =
        (.ok ⟨.address .word 0 13 true, false, []⟩, ()) := by
  have before : (sampleExpr.evaluate (sampleSurroundings 0)).run () =
      (.ok ⟨.address .word 0 10 true, false, []⟩, ()) := rfl
  obtain ⟨_, after, -⟩ := Expr.evaluate_displaced displaced_sampleSurroundings trivial before nofun
    fun op value applies => by
      cases applies_sampleExpr applies
      intro kind _ _
      decide
  exact ⟨before, after⟩

end Sample

end CrayAssembler
