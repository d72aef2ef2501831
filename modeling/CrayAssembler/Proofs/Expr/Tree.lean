import CrayAssembler.Expr.Eval

namespace CrayAssembler

namespace Eval

variable {m : Type → Type} [Monad m]

/-- The value of an expression along its tree. -/
def tree (env : Surroundings m) : Expr → EvalM m Value
  | .symbol name => symbol env name
  | .number text => number env text
  | .based value => return .absolute value
  | .string constant => characters constant
  | .location counter => env.counter counter
  | .unary op operand => do unary op (← tree env operand)
  | .binary op left right => do
    let first ← tree env left
    let second ← tree env right
    binary op first second
  | .group inner => tree env inner
  | .literal key operand =>
    let content : LiteralOperand m :=
      match operand with
      | .string constant => .characters constant
      | _ => .computed (collect (tree env operand))
    literal env key content

/-- What a machine does when a step does not find its operands on the stack, and when the steps do
not leave exactly one value there. -/
structure Faults (m : Type → Type) where
  missing : List Value → EvalM m (List Value)
  remaining : List Value → EvalM m Value

namespace Faults

variable (faults : Faults m)

/-- A step of a machine that has faults of its own. -/
def step (stack : List Value) : Step m → EvalM m (List Value)
  | .operand read => do return (← read) :: stack
  | .unary op =>
    match stack with
    | value :: rest => do return (← unary op value) :: rest
    | [] => faults.missing []
  | .binary op =>
    match stack with
    | right :: left :: rest => do return (← binary op left right) :: rest
    | short => faults.missing short

/-- All steps of such a machine. -/
def run (steps : List (Step m)) : EvalM m Value := do
  match ← steps.foldlM faults.step [] with
  | [value] => return value
  | stack => faults.remaining stack

end Faults

/-- Both faults are errors in the expression. -/
def Faults.strict : Faults m := ⟨fun _ => throw .expression, fun _ => throw .expression⟩

theorem step_strict (stack : List Value) (next : Step m) :
    (.strict : Faults m).step stack next = step stack next := by
  cases next with
  | operand read => rfl
  | unary op => cases stack <;> rfl
  | binary op =>
    match stack with
    | [] => rfl
    | [_] => rfl
    | _ :: _ :: _ => rfl

theorem run_strict (steps : List (Step m)) : (.strict : Faults m).run steps = run steps := by
  have same : (.strict : Faults m).step = step :=
    funext fun stack => funext (step_strict stack)
  unfold Faults.run run
  rw [same]
  refine congrArg (steps.foldlM step [] >>= ·) (funext fun stack => ?_)
  match stack with
  | [] => rfl
  | [_] => rfl
  | _ :: _ :: _ => rfl

variable [LawfulMonad m]

section Leaving

variable {faults : Faults m} {stack : List Value}

theorem foldlM_operand (read : EvalM m Value) :
    [Step.operand read].foldlM faults.step stack = do return (← read) :: stack := by
  simp only [List.foldlM_cons, List.foldlM_nil, Faults.step, bind_pure]

/-- An operator takes the value that the steps before it have left. -/
theorem foldlM_unary {steps : List (Step m)} {operand : EvalM m Value} (op : UnaryOp)
    (left : steps.foldlM faults.step stack = do return (← operand) :: stack) :
    (steps ++ [Step.unary op]).foldlM faults.step stack =
      do return (← unary op (← operand)) :: stack := by
  rw [List.foldlM_append, left]
  simp only [List.foldlM_cons, List.foldlM_nil, Faults.step, bind_assoc, pure_bind, bind_pure]

/-- An operator takes the values that the steps of both operands have left, the second one first. -/
theorem foldlM_binary {steps more : List (Step m)} {first second : EvalM m Value} (op : BinaryOp)
    (left : steps.foldlM faults.step stack = do return (← first) :: stack)
    (right : ∀ stack, more.foldlM faults.step stack = do return (← second) :: stack) :
    (steps ++ more ++ [Step.binary op]).foldlM faults.step stack = do
      let left ← first
      let right ← second
      return (← binary op left right) :: stack := by
  rw [List.foldlM_append, List.foldlM_append, left]
  simp only [right, List.foldlM_cons, List.foldlM_nil, Faults.step, bind_assoc, pure_bind, bind_pure]

/-- What is left on an empty stack is the only value there. -/
theorem run_eq {steps : List (Step m)} {value : EvalM m Value}
    (left : steps.foldlM faults.step [] = do return [← value]) : faults.run steps = value := by
  unfold Faults.run
  rw [left]
  simp only [bind_assoc, pure_bind, bind_pure]

end Leaving

variable (env : Surroundings m)

/-- The steps of an expression leave the value of its tree on top of whatever was there. -/
theorem foldlM_steps (faults : Faults m) (expr : Expr) (stack : List Value) :
    (steps env expr).foldlM faults.step stack = do return (← tree env expr) :: stack := by
  -- A literal evaluates its operand from an empty stack, on the machine that is strict.
  induction expr generalizing faults stack with
  | symbol | number | based | string | location => exact foldlM_operand _
  | unary op operand ih =>
    refine (foldlM_unary op (ih faults stack)).trans ?_
    simp only [tree, bind_assoc]
  | binary op left right first second =>
    refine (foldlM_binary op (first faults stack) (second faults)).trans ?_
    simp only [tree, bind_assoc]
  | group inner ih => exact ih faults stack
  | literal key operand ih =>
    have inner : run (steps env operand) = tree env operand := by
      rw [← run_strict]
      exact run_eq (ih .strict [])
    simp only [steps, tree, inner]
    exact foldlM_operand _

theorem run_steps (expr : Expr) : run (steps env expr) = tree env expr := by
  rw [← run_strict]
  exact run_eq (foldlM_steps env .strict expr [])

end Eval

section Trees

open Eval (Faults)

variable {m : Type → Type} [Monad m]

/-- Evaluation follows the tree of an expression, whatever the surroundings do when they are asked.
The steps leave the value of the tree on top of the stack on every machine, so that one that has other
faults comes to the same. -/
theorem Expr.evaluate_tree [LawfulMonad m] (env : Surroundings m) (expr : Expr) :
    expr.evaluate env = Eval.collect (Eval.tree env expr) ∧
      ∀ faults : Faults m,
        (∀ stack, (Eval.steps env expr).foldlM faults.step stack =
          do return (← Eval.tree env expr) :: stack) ∧
        faults.run (Eval.steps env expr) = Eval.run (Eval.steps env expr) := by
  refine ⟨congrArg Eval.collect (Eval.run_steps env expr), fun faults =>
    ⟨Eval.foldlM_steps env faults expr, ?_⟩⟩
  rw [Eval.run_steps]
  exact Eval.run_eq (Eval.foldlM_steps env faults expr [])

/-- Surroundings that write down what they are asked. -/
def recording : Surroundings (StateM (List String)) where
  symbol name := do
    modify (· ++ [name.name])
    return ⟨.absolute 7, true⟩
  counter
    | .parcel => do
      modify (· ++ ["*P"])
      return .address .parcel 0 12 true
    | _ => do
      modify (· ++ ["*"])
      return .address .word 0 3 true
  literal key operand := do
    modify (· ++ [key])
    match operand with
    | .characters _ => return .ok (.address .word 1 0 true)
    | .computed evaluation => return (← evaluation).map fun found => found.value
  radix := return 10

/-- Parcels are subtracted from words, after a literal that refers ahead. -/
def recordedExpr : Expr :=
  .binary .add (.literal "=X" (.unary .minus (.symbol ⟨none, "X"⟩)))
    (.group (.binary .subtract (.location .location) (.location .parcel)))

theorem Expr.evaluate_tree_recording :
    (recordedExpr.evaluate recording).run [] =
        (.ok ⟨.absolute (-7), false, [.expressionElement]⟩, ["=X", "X", "*", "*P"]) ∧
      recordedExpr.evaluate recording = Eval.collect (Eval.tree recording recordedExpr) ∧
      ∀ faults : Faults (StateM (List String)),
        (∀ stack, (Eval.steps recording recordedExpr).foldlM faults.step stack =
          do return (← Eval.tree recording recordedExpr) :: stack) ∧
        faults.run (Eval.steps recording recordedExpr) =
          Eval.run (Eval.steps recording recordedExpr) :=
  ⟨rfl, Expr.evaluate_tree recording recordedExpr⟩

end Trees

end CrayAssembler
