import CrayAssembler.Proofs.Assembly.Loads
import CrayAssembler.Proofs.Pattern.Instructions

namespace CrayAssembler

open Instruction (Code ghIJk ghIJkm ghIJk_inj ghIJkm_inj)

/-- Parentheses leave no trace, so the operator at the root of an expression comes last. -/
theorem Eval.steps_rootUnary? {m : Type → Type} [Monad m] (env : Surroundings m)
    {expr inner : Expr} {op : UnaryOp} (root : expr.rootUnary? = some (op, inner)) :
    steps env expr = steps env inner ++ [.unary op] := by
  fun_induction Expr.rootUnary? expr with
  | case1 op operand =>
    obtain ⟨⟩ := root
    rfl
  | case2 inner ih => exact ih root
  | case3 => cases root

/-- The number that an expression comes to, if it is a constant. -/
def Context.constant? (context : Context) (expr : Expr) : Option Word :=
  match ((expr.evaluate Asm.surroundings).run context).1 with
  | .ok evaluation =>
    if evaluation.value.isConstant then some evaluation.value.numeric else none
  | .error _ => none

namespace Asm

/-- An operator that comes last has a value to work on. -/
theorem outcome_unary {steps : List (Eval.Step AsmM)} {op : UnaryOp} {place later : Place}
    {result : Value} (ran : outcome (Eval.run (steps ++ [.unary op])) place = (.ok result, later)) :
    ∃ value, outcome (Eval.run steps) place = (.ok value, later) ∧
      Value.unary op value = .ok result := by
  unfold Eval.run at ran ⊢
  rw [List.foldlM_append, outcome_bind, outcome_bind] at ran
  rw [outcome_bind]
  generalize outcome (steps.foldlM Eval.step []) place = first at ran ⊢
  obtain ⟨kind | stack, middle⟩ := first
  · nomatch ran
  · dsimp only at ran ⊢
    rw [List.foldlM_cons, outcome_bind] at ran
    cases stack with
    | nil => nomatch ran
    | cons value rest =>
      unfold Eval.step at ran
      dsimp only at ran
      rw [outcome_bind] at ran
      unfold Eval.unary at ran
      cases computed : Value.unary op value with
      | error kind =>
        rw [computed] at ran
        nomatch ran
      | ok found =>
        rw [computed] at ran
        cases rest with
        | nil =>
          obtain ⟨⟩ := ran
          exact ⟨value, rfl, computed⟩
        | cons => nomatch ran

section Codes

/-- The code with which an S register is loaded with the value of an expression. -/
inductive LoadsS (i : Nat) (expr : Expr) : Word → Code → Prop
  | plain {word : Word} (fits : word.toNat < 2 ^ 22) :
      LoadsS i expr word (.long (ghIJkm 0o040 i word.toNat))
  | complement {word : Word} (fits : (~~~word).toNat < 2 ^ 22) :
      LoadsS i expr word (.long (ghIJkm 0o041 i (~~~word).toNat))
  | maskRight {inner : Expr} {n : Nat} (root : expr.rootUnary? = some (.maskRight, inner))
      (inside : n ≤ 64) : LoadsS i expr (Word.maskRight n) (.short (ghIJk 0o042 i (64 - n)))
  | maskLeft {inner : Expr} {n : Nat} (root : expr.rootUnary? = some (.maskLeft, inner))
      (inside : n ≤ 64) : LoadsS i expr (Word.maskLeft n) (.short (ghIJk 0o043 i n))

/-- What is left of 64 goes into the six bits. -/
theorem complements_inj {gh i n m : Nat} (inside : n ≤ 64) (inside' : m ≤ 64)
    (same : ghIJk gh i (64 - n) = ghIJk gh i (64 - m)) :
    n = m ∨ n = 0 ∧ m = 64 ∨ n = 64 ∧ m = 0 := by
  have numbers := ghIJk_inj (Nat.sub_le 64 n) (Nat.sub_le 64 m) same
  omega

/-- Two masks made by one operator, of which one has no ones and the other has no zeros. -/
def Clash (one other : Expr) (v w : Word) : Prop :=
  ∃ op ∈ [UnaryOp.maskLeft, .maskRight], (∃ inner, one.rootUnary? = some (op, inner)) ∧
    (∃ inner, other.rootUnary? = some (op, inner)) ∧ (v = 0 ∧ w = ~~~0 ∨ v = ~~~0 ∧ w = 0)

/-- The code tells the value, but for two masks. -/
theorem LoadsS.inj {i : Nat} {one other : Expr} {v w : Word} {code code' : Code}
    (first : LoadsS i one v code) (second : LoadsS i other w code') (same : code = code') :
    v = w ∨ Clash one other v w := by
  cases first with
  | plain fits =>
    cases second with
    | plain fits' => exact .inl (UInt64.toNat_inj.mp (ghIJkm_inj fits fits' (Code.long.inj same)))
    | complement fits' => exact absurd (Instruction.gh_of_ghIJkm (Code.long.inj same)) (by decide)
    | maskRight | maskLeft => nomatch same
  | complement fits =>
    cases second with
    | plain fits' => exact absurd (Instruction.gh_of_ghIJkm (Code.long.inj same)) (by decide)
    | complement fits' =>
      have complements := UInt64.toNat_inj.mp (ghIJkm_inj fits fits' (Code.long.inj same))
      exact .inl (UInt64.not_inj.mp complements)
    | maskRight | maskLeft => nomatch same
  | maskRight root inside =>
    cases second with
    | plain | complement => nomatch same
    | maskRight root' inside' =>
      have widths := complements_inj inside inside' (Code.short.inj same)
      rcases widths with rfl | ⟨rfl, rfl⟩ | ⟨rfl, rfl⟩
      · exact .inl rfl
      · exact .inr ⟨_, by decide, ⟨_, root⟩, ⟨_, root'⟩, .inl (by decide)⟩
      · exact .inr ⟨_, by decide, ⟨_, root⟩, ⟨_, root'⟩, .inr (by decide)⟩
    | maskLeft => exact absurd (Instruction.gh_of_ghIJk (Code.short.inj same)) (by decide)
  | maskLeft root inside =>
    cases second with
    | plain | complement => nomatch same
    | maskRight => exact absurd (Instruction.gh_of_ghIJk (Code.short.inj same)) (by decide)
    | maskLeft root' inside' =>
      rcases ghIJk_inj inside inside' (Code.short.inj same) with rfl | ⟨rfl, rfl⟩ | ⟨rfl, rfl⟩
      · exact .inl rfl
      · exact .inr ⟨_, by decide, ⟨_, root⟩, ⟨_, root'⟩, .inl (by decide)⟩
      · exact .inr ⟨_, by decide, ⟨_, root⟩, ⟨_, root'⟩, .inr (by decide)⟩

end Codes

section Operands

variable {context : Context} {expr : Expr} {v : Word}

theorem outcome_constant (found : context.constant? expr = some v) :
    ∃ value later, outcome (Eval.run (Eval.steps surroundings expr)) ({}, context) =
      (.ok value, later) ∧ value.isConstant ∧ value.numeric = v := by
  unfold Context.constant? at found
  rw [run_evaluate] at found
  generalize outcome (Eval.run (Eval.steps surroundings expr)) ({}, context) = result at found ⊢
  obtain ⟨kind | value, progress, later⟩ := result
  · nomatch found
  · dsimp only [Except.map] at found
    split at found
    case isTrue constant => exact ⟨value, _, rfl, constant, Option.some.inj found⟩
    case isFalse => nomatch found

theorem constant?_outcome {value : Value} {later : Place}
    (ran : outcome (Eval.run (Eval.steps surroundings expr)) ({}, context) = (.ok value, later))
    (constant : value.isConstant) : context.constant? expr = some value.numeric := by
  unfold Context.constant?
  rw [run_evaluate, ran]
  exact if_pos constant

/-- What is done with the value of an operand. -/
theorem run_withOperand {value : Value} {later : Place}
    (ran : outcome (Eval.run (Eval.steps surroundings expr)) ({}, context) = (.ok value, later))
    (next : Value → AsmM Unit) :
    ((operandValue (some expr) >>= fun evaluation => next evaluation.value).run context).2 =
      ((next value).run ((operandValue (some expr)).run context).2).2 := by
  have found : ((operandValue (some expr)).run context).1.value = value := by
    unfold operandValue
    rw [StateT.run_bind, run_evaluateExpr, run_evaluate, ran]
    rfl
  rw [← found]
  rfl

theorem bits_numeric {value : Value} {n : Word} (known : value.bits = .ok n) : n = value.numeric := by
  unfold Value.bits at known
  split at known
  · nomatch known
  · split at known
    · exact (Except.ok.inj known).symm
    · nomatch known

/-- The width of a mask that is a constant. -/
theorem unary_mask {op : UnaryOp} {mask : Nat → Word} {width result : Value}
    (shape : Value.unaryDefined op width =
      (do return .absolute (mask (← Value.maskWidth (← width.bits)))))
    (computed : Value.unary op width = .ok result) (constant : result.isConstant) :
    width.isUndefined = false ∧ width.numeric.toNat ≤ 64 ∧
      result.numeric = mask width.numeric.toNat := by
  unfold Value.unary at computed
  split at computed
  · cases computed
    nomatch constant
  case isFalse defined =>
    rw [shape] at computed
    cases bits : width.bits with
    | error kind =>
      rw [bits] at computed
      nomatch computed
    | ok n =>
      rw [bits] at computed
      change (Value.maskWidth n >>= fun count => pure (Value.absolute (mask count))) = _ at computed
      unfold Value.maskWidth at computed
      split at computed
      case isFalse => nomatch computed
      case isTrue inside =>
        cases computed
        have same : n = width.numeric := bits_numeric bits
        rw [← same]
        exact ⟨Bool.eq_false_iff.mpr defined, inside, rfl⟩

end Operands

section Placing

variable {context : Context} {i : Nat} {expr : Expr} {value : Value} {v : Word}

theorem keyed_some (keyed : expr.Keyed) : ∀ operand ∈ some expr, operand.Keyed :=
  fun _ member => Option.some.inj member ▸ keyed

theorem loose_second : Loose fun context => context.pass = .two where
  aside _ second := second
  modifyModule _ := .modify fun _ second => second

/-- In pass 2 code is shown after what the statement has generated before. -/
theorem generated_emitShown (second : context.pass = .two) (width : Nat) (bits : Word)
    (text : String) :
    ((do emitBits width bits; showGenerated text : AsmM Unit).run context).2.statement.generated =
      context.statement.generated ++ [text] := by
  have kept : Keeps (fun later => later.pass = .two ∧
      later.statement.generated = context.statement.generated) (emitBits width bits) :=
    sees_keeping.emitBits (fun _ => Keeps.modify fun _ holds => holds)
      (fun _ => Keeps.modify fun _ holds => holds) _ _
  obtain ⟨⟨still, same⟩, -⟩ := kept context ⟨second, rfl⟩
  change ((showGenerated text).run ((emitBits width bits).run context).2).2.statement.generated = _
  unfold showGenerated
  rw [StateT.run_bind, StateT.run_get, pure_bind, if_pos still, ← same]
  rfl

theorem generated_placeCode (second : context.pass = .two) (code : Code) :
    ((placeCode code).run context).2.statement.generated =
      context.statement.generated ++ [code.text] := by
  cases code with
  | short parcel => exact generated_emitShown second _ _ _
  | long pair =>
    unfold placeCode emitAddressInstruction
    rw [recordReference_constant rfl]
    exact generated_emitShown second _ _ _

theorem emitMask_placed (right : Bool) (defined : value.isUndefined = false)
    (quiet : ¬ Faulty ((emitMask i right value).run context).2) :
    emitMask i right value = placeCode (.short (if right then ghIJk 0o042 i (64 - value.numeric.toNat)
      else ghIJk 0o043 i value.numeric.toNat)) := by
  unfold emitMask at quiet ⊢
  rw [if_neg (by simp [defined])] at quiet ⊢
  split at quiet
  · exact absurd (faulty_after (spared_faulty.emitParcel _) _ context) quiet
  case isFalse narrow =>
    rw [if_neg narrow]
    cases right <;> rfl

theorem emitLoadSValue_placed (expr : Expr) (constant : value.isConstant)
    (quiet : ¬ Faulty ((emitLoadSValue i value).run context).2) :
    ∃ code, emitLoadSValue i value = placeCode code ∧ LoadsS i expr value.numeric code := by
  have defined := (Value.isConstant_iff.mp constant).1.2.2
  have number : fieldNumber value = value.numeric.toNat := if_neg (by simp [defined])
  unfold emitLoadSValue at quiet ⊢
  dsimp only at quiet ⊢
  rw [if_neg (by simp [constant]), number] at quiet ⊢
  split
  case isTrue fits =>
    rw [if_pos fits] at quiet
    have small := (Word.fitsUnsigned_iff _ (by decide)).mp fits
    exact ⟨_, emitAddressInstruction_constant constant _ quiet, .plain small⟩
  case isFalse large =>
    rw [if_neg large] at quiet
    split
    case isTrue fits =>
      exact ⟨.long _, rfl, .complement ((Word.fitsUnsigned_iff _ (by decide)).mp fits)⟩
    case isFalse wide =>
      rw [if_neg wide] at quiet
      exact absurd (faulty_after (spared_faulty.emitAddressInstruction _ _ _) _ context) quiet

theorem storedOrSelf_constant (constant : value.isConstant) : storedOrSelf value = pure value := by
  have integer := (Value.isConstant_iff.mp constant).2
  unfold storedOrSelf
  rw [if_pos (by simp [integer])]

/-- A mask is told by the operator at the root, and all else by the value. -/
theorem emitLoadS_cases (i : Nat) (expr : Expr) :
    (∃ right inner, expr.rootUnary? = some (if right then .maskRight else .maskLeft, inner) ∧
      emitLoadS i (some expr) =
        operandValue (some inner) >>= fun width => emitMask i right width.value) ∨
    emitLoadS i (some expr) = operandValue (some expr) >>= fun evaluation =>
      storedOrSelf evaluation.value >>= emitLoadSValue i := by
  unfold emitLoadS
  rw [Option.bind_some]
  split
  case h_1 inner root => exact .inl ⟨true, inner, root, rfl⟩
  case h_2 inner root => exact .inl ⟨false, inner, root, rfl⟩
  case h_3 => exact .inr rfl

/-- The code that a statement shows last has a property. -/
def Shows (statement : StatementState) (known : Code → Prop) : Prop :=
  ∃ before code, statement.generated = before ++ [code.text] ∧ known code

/-- The same text is shown for the same code. -/
theorem Shows.meet {one other : StatementState} {known known' : Code → Prop} (first : Shows one known)
    (second : Shows other known') (same : one.generated = other.generated) :
    ∃ code, known code ∧ known' code := by
  obtain ⟨before, code, shown, holds⟩ := first
  obtain ⟨before', code', shown', holds'⟩ := second
  rw [shown, shown'] at same
  have texts := List.singleton_inj.mp (List.append_inj' same rfl).2
  rw [Code.text_inj texts] at holds
  exact ⟨code', holds, holds'⟩

theorem shows_placeCode (second : context.pass = .two) {action : AsmM Unit} {code : Code}
    {known : Code → Prop} (placed : action = placeCode code) (holds : known code) :
    Shows (action.run context).2.statement known :=
  ⟨_, code, placed ▸ generated_placeCode second code, holds⟩

theorem shows_mask (keyed : expr.Keyed) (second : context.pass = .two)
    (constant : context.constant? expr = some v) {right : Bool} {inner : Expr}
    (root : expr.rootUnary? = some (if right then .maskRight else .maskLeft, inner))
    (quiet : ¬ Faulty ((operandValue (some inner) >>= fun width =>
      emitMask i right width.value).run context).2) :
    Shows ((operandValue (some inner) >>= fun width => emitMask i right width.value).run context).2.statement
      (LoadsS i expr v) := by
  obtain ⟨value, place, ran, isConstant, rfl⟩ := outcome_constant constant
  rw [Eval.steps_rootUnary? _ root] at ran
  obtain ⟨width, innerRan, computed⟩ := outcome_unary ran
  have innerKeyed := keyed_some (Expr.keyed_rootUnary? keyed root)
  have later := (loose_second.places.operandValue (fun _ => innerKeyed) context second).1
  rw [run_withOperand innerRan (emitMask i right)] at quiet ⊢
  cases right with
  | true =>
    obtain ⟨defined, inside, mask⟩ := unary_mask rfl computed isConstant
    rw [mask]
    exact shows_placeCode later (emitMask_placed true defined quiet) (.maskRight root inside)
  | false =>
    obtain ⟨defined, inside, mask⟩ := unary_mask rfl computed isConstant
    rw [mask]
    exact shows_placeCode later (emitMask_placed false defined quiet) (.maskLeft root inside)

theorem shows_loadS (keyed : expr.Keyed) (second : context.pass = .two)
    (constant : context.constant? expr = some v)
    (quiet : ¬ Faulty ((emitLoadS i (some expr)).run context).2) :
    Shows ((emitLoadS i (some expr)).run context).2.statement (LoadsS i expr v) := by
  rcases emitLoadS_cases i expr with ⟨right, inner, root, same⟩ | same
  · rw [same] at quiet ⊢
    exact shows_mask keyed second constant root quiet
  · rw [same] at quiet ⊢
    obtain ⟨value, place, ran, isConstant, rfl⟩ := outcome_constant constant
    have later := (loose_second.places.operandValue (fun _ => keyed_some keyed) context second).1
    rw [run_withOperand ran (storedOrSelf · >>= emitLoadSValue i),
      storedOrSelf_constant isConstant, pure_bind] at quiet ⊢
    obtain ⟨code, placed, known⟩ := emitLoadSValue_placed expr isConstant quiet
    exact shows_placeCode later placed known

end Placing

section Shifts

variable {context : Context} {gh i : Nat} {right : Bool} {count : Expr} {value : Value}

/-- The code of a shift by a count. -/
def ShiftsBy (gh i : Nat) (right : Bool) (n : Word) (code : Code) : Prop :=
  n.toNat ≤ (if right then 64 else 63) ∧
    code = .short (ghIJk gh i (if right then 64 - n.toNat else n.toNat))

/-- The code tells the count, but for shifts to the right by 0 and by 64. -/
theorem ShiftsBy.inj {n m : Word} {code code' : Code} (first : ShiftsBy gh i right n code)
    (second : ShiftsBy gh i right m code') (same : code = code') :
    n = m ∨ right = true ∧ (n = 0 ∧ m = 64 ∨ n = 64 ∧ m = 0) := by
  obtain ⟨inside, rfl⟩ := first
  obtain ⟨inside', rfl⟩ := second
  have number (n m : Word) (known : n.toNat = m.toNat) : n = m := UInt64.toNat_inj.mp known
  cases right with
  | true =>
    rcases complements_inj inside inside' (Code.short.inj same) with equal | ⟨none, all⟩ | ⟨all, none⟩
    · exact .inl (number _ _ equal)
    · exact .inr ⟨rfl, .inl ⟨number _ 0 none, number _ 64 all⟩⟩
    · exact .inr ⟨rfl, .inr ⟨number _ 64 all, number _ 0 none⟩⟩
  | false =>
    simp only [Bool.false_eq_true, if_false] at inside inside' same
    have numbers := ghIJk_inj (Nat.le_succ_of_le inside) (Nat.le_succ_of_le inside')
      (Code.short.inj same)
    exact .inl (number _ _ (by omega))

theorem faulty_emitShift : Keeps Faulty (emitShift gh i right value) :=
  Gives.complain (spared_faulty.note _) (spared_faulty.emitParcel _)

/-- An operand without a value draws an error. -/
theorem defined_of_quiet (quiet : ¬ Faulty ((operandValue (some count)).run context).2) :
    ∃ value later, outcome (Eval.run (Eval.steps surroundings count)) ({}, context) =
      (.ok value, later) ∧ value.isUndefined = false := by
  change ¬ Faulty ((evaluateExpr count).run context).2 at quiet
  rw [run_evaluateExpr, run_evaluate] at quiet
  generalize outcome (Eval.run (Eval.steps surroundings count)) ({}, context) = result at quiet ⊢
  obtain ⟨kind | value, later⟩ := result
  · exact absurd (hasErrors_error _ _) quiet
  · refine ⟨value, later, rfl, Bool.eq_false_iff.mpr fun undefined => ?_⟩
    dsimp only [Except.map] at quiet
    rw [if_pos undefined] at quiet
    exact quiet (hasErrors_error _ _)

theorem emitShift_placed (defined : value.isUndefined = false)
    (quiet : ¬ Faulty ((emitShift gh i right value).run context).2) :
    value.isConstant ∧ ∃ code, emitShift gh i right value = placeCode code ∧
      ShiftsBy gh i right value.numeric code := by
  have number : fieldNumber value = value.numeric.toNat := if_neg (by simp [defined])
  unfold emitShift at quiet ⊢
  dsimp only at quiet ⊢
  rw [number] at quiet ⊢
  by_cases refused : (decide ((if right then 64 else 63) < value.numeric.toNat) ||
      !value.isConstant && !value.isUndefined) = true
  · rw [if_pos refused] at quiet
    exact absurd (faulty_after (spared_faulty.emitParcel _) _ context) quiet
  · rw [if_neg refused]
    simp only [defined, Bool.or_eq_true, Bool.and_eq_true, decide_eq_true_iff, Bool.not_eq_true',
      Bool.not_false, and_true, not_or, Bool.not_eq_false, Nat.not_lt] at refused
    obtain ⟨inside, constant⟩ := refused
    refine ⟨constant, .short _, rfl, inside, ?_⟩
    cases right with
    | true =>
      have cut : min value.numeric.toNat 64 = value.numeric.toNat := Nat.min_eq_left inside
      rw [if_pos rfl, if_pos rfl, cut]
    | false => exact congrArg (fun jk => Code.short (ghIJk gh i jk)) (Nat.min_eq_left inside)

theorem shows_shift (keyed : count.Keyed) (second : context.pass = .two)
    (quiet : ¬ Faulty ((operandValue (some count) >>= fun evaluation =>
      emitShift gh i right evaluation.value).run context).2) :
    ∃ n, context.constant? count = some n ∧
      Shows ((operandValue (some count) >>= fun evaluation =>
        emitShift gh i right evaluation.value).run context).2.statement (ShiftsBy gh i right n) := by
  have before : ¬ Faulty ((operandValue (some count)).run context).2 := fun faulty =>
    quiet (faulty_emitShift _ faulty).1
  obtain ⟨value, place, ran, defined⟩ := defined_of_quiet before
  have later := (loose_second.places.operandValue (fun _ => keyed_some keyed) context second).1
  rw [run_withOperand ran (emitShift gh i right)] at quiet ⊢
  obtain ⟨constant, code, placed, known⟩ := emitShift_placed defined quiet
  exact ⟨value.numeric, constant?_outcome ran constant, shows_placeCode later placed known⟩

end Shifts

end Asm

namespace Context

open Matcher (Found FieldTokens)

/-- The machine instruction that a statement is. -/
def instruction? (context : Context) (fields : Fields) : Option (Found InstructionSet.Rule) :=
  let flexible := context.settings.flexible
  (InstructionSet.table.find (FieldTokens.ofText fields.result flexible)
    (FieldTokens.ofText fields.operand flexible) flexible).toOption

/-- The context in which the operands of an instruction are read. -/
def opened (context : Context) (location : String) : Context :=
  let placed := ((do Asm.forceParcelBoundary; Asm.defineParcelLabel location :
    AsmM Unit).run context).2
  { placed with inInstruction := true }

/-- The S register that a statement loads, and with the value of which expression. The address of a
literal is not loaded: memory is read there. -/
def load? (context : Context) (fields : Fields) : Option (Nat × Expr) :=
  (context.instruction? fields).bind fun found =>
    match found.handler.encoding with
    | .loadS i value => ((Asm.expressionArg? found.args value).filter fun expr =>
        !Asm.isLiteral expr).map fun expr => (Asm.registerArg found.args i, expr)
    | _ => none

/-- A shift by a constant: its operation, the register, and what counts the places. -/
structure Shift where
  gh : Nat
  i : Nat
  right : Bool
  count : Expr
deriving DecidableEq

/-- The shift that a statement is. -/
def shift? (context : Context) (fields : Fields) : Option Shift :=
  (context.instruction? fields).bind fun found =>
    match found.handler.encoding with
    | .shift gh i count right => (Asm.expressionArg? found.args count).map fun expr =>
        ⟨gh, Asm.registerArg found.args i, right, expr⟩
    | _ => none

/-- What a statement generates in pass 2 when it draws no error. -/
structure Generates (context : Context) (fields : Fields) (generated : List String) : Prop where
  second : context.pass = .two
  quiet : ((Asm.machineInstruction fields).run context).2.statement.diagnostics.hasErrors = false
  generated : ((Asm.machineInstruction fields).run context).2.statement.generated = generated

instance {context : Context} {fields : Fields} {generated : List String} :
    Decidable (context.Generates fields generated) :=
  decidable_of_iff (context.pass = .two ∧
      ((Asm.machineInstruction fields).run context).2.statement.diagnostics.hasErrors = false ∧
      ((Asm.machineInstruction fields).run context).2.statement.generated = generated)
    ⟨fun ⟨second, quiet, generated⟩ => ⟨second, quiet, generated⟩,
      fun ⟨second, quiet, generated⟩ => ⟨second, quiet, generated⟩⟩

end Context

namespace Asm

section Statements

variable {context : Context} {fields : Fields}

theorem find_of_instruction? {found : Matcher.Found InstructionSet.Rule}
    (known : context.instruction? fields = some found) :
    InstructionSet.table.find (.ofText fields.result context.settings.flexible)
      (.ofText fields.operand context.settings.flexible) context.settings.flexible = .ok found := by
  unfold Context.instruction? at known
  dsimp only at known
  generalize InstructionSet.table.find _ _ _ = outcome at known ⊢
  cases outcome with
  | error reason => nomatch known
  | ok other =>
    cases known
    rfl

theorem keyed_instruction? {found : Matcher.Found InstructionSet.Rule}
    (known : context.instruction? fields = some found) : ∀ arg ∈ found.args, arg.Keyed :=
  Matcher.keyed_find (laid_tokenize _ _) (laid_tokenize _ _) (find_of_instruction? known)

theorem machineInstruction_of_found {found : Matcher.Found InstructionSet.Rule}
    (known : context.instruction? fields = some found) :
    (machineInstruction fields).run context =
      (if context.currentSection.type.allowsInstructions then
        placeInstruction fields.location found.handler found.args
      else error .instructionPlacement).run context := by
  unfold machineInstruction
  rw [StateT.run_bind, StateT.run_get, pure_bind]
  dsimp only
  rw [find_of_instruction? known]

/-- An instruction that draws no error is encoded. -/
theorem machineInstruction_encoded {found : Matcher.Found InstructionSet.Rule}
    (known : context.instruction? fields = some found)
    (quiet : ¬ Faulty ((machineInstruction fields).run context).2) :
    ((machineInstruction fields).run context).2.statement =
      ((encode found.handler.encoding found.args).run (context.opened fields.location)).2.statement := by
  rw [machineInstruction_of_found known] at quiet ⊢
  split at quiet
  case isFalse => exact absurd (hasErrors_error _ _) quiet
  case isTrue allowed =>
    rw [if_pos allowed]
    unfold placeInstruction at quiet ⊢
    dsimp only at quiet ⊢
    split at quiet
    case isFalse => exact absurd (hasErrors_error _ _) quiet
    case isTrue agree =>
      rw [if_pos agree]
      rfl

theorem opened_second (second : context.pass = .two) (location : String) :
    (context.opened location).pass = .two :=
  ((loose_second.places.forceParcelBoundary.bind fun _ =>
    loose_second.reads.defineParcelLabel location) context second).1

theorem load?_eq_some {i : Nat} {expr : Expr} (loads : context.load? fields = some (i, expr)) :
    ∃ found first second, context.instruction? fields = some found ∧
      found.handler.encoding = .loadS first second ∧ registerArg found.args first = i ∧
      expressionArg? found.args second = some expr ∧ isLiteral expr = false := by
  obtain ⟨found, known, loads⟩ := Option.bind_eq_some_iff.mp loads
  split at loads
  case h_1 first second encoding =>
    obtain ⟨operand, filtered, same⟩ := Option.map_eq_some_iff.mp loads
    obtain ⟨rfl, rfl⟩ := Prod.mk.inj same
    obtain ⟨present, plain⟩ := Option.filter_eq_some_iff.mp filtered
    exact ⟨found, first, second, known, encoding, rfl, present, by simpa using plain⟩
  case h_2 => nomatch loads

theorem shift?_eq_some {shift : Context.Shift} (shifts : context.shift? fields = some shift) :
    ∃ found first second, context.instruction? fields = some found ∧
      found.handler.encoding = .shift shift.gh first second shift.right ∧
      registerArg found.args first = shift.i ∧
      expressionArg? found.args second = some shift.count := by
  obtain ⟨found, known, shifts⟩ := Option.bind_eq_some_iff.mp shifts
  split at shifts
  case h_1 gh first second right encoding =>
    obtain ⟨operand, present, rfl⟩ := Option.map_eq_some_iff.mp shifts
    exact ⟨found, first, second, known, encoding, rfl, present⟩
  case h_2 => nomatch shifts

theorem encode_loadS {args : List Matcher.Arg} {first second : Nat} {expr : Expr}
    (operand : expressionArg? args second = some expr) (plain : isLiteral expr = false) :
    encode (.loadS first second) args = emitLoadS (registerArg args first) (some expr) := by
  unfold encode
  dsimp only
  rw [operand]
  exact if_neg (by simp [plain])

theorem encode_shift {args : List Matcher.Arg} {gh first second : Nat} {right : Bool} {count : Expr}
    (operand : expressionArg? args second = some count) :
    encode (.shift gh first second right) args = operandValue (some count) >>= fun evaluation =>
      emitShift gh (registerArg args first) right evaluation.value := by
  unfold encode
  dsimp only
  rw [operand]

variable {generated : List String}

/-- A statement that draws no error shows what is placed for its instruction. -/
theorem encoded_of_generates (generates : context.Generates fields generated)
    {found : Matcher.Found InstructionSet.Rule} (known : context.instruction? fields = some found) :
    ((machineInstruction fields).run context).2.statement =
        ((encode found.handler.encoding found.args).run (context.opened fields.location)).2.statement ∧
      ¬ Faulty ((encode found.handler.encoding found.args).run (context.opened fields.location)).2 := by
  have quiet : ¬ Faulty ((machineInstruction fields).run context).2 :=
    Bool.eq_false_iff.mp generates.quiet
  have encoded := machineInstruction_encoded known quiet
  refine ⟨encoded, fun faulty => quiet ?_⟩
  unfold Faulty at faulty ⊢
  rwa [encoded]

theorem shows_of_load {i : Nat} {expr : Expr} {v : Word} (loads : context.load? fields = some (i, expr))
    (generates : context.Generates fields generated)
    (constant : (context.opened fields.location).constant? expr = some v) :
    Shows ((machineInstruction fields).run context).2.statement (LoadsS i expr v) := by
  obtain ⟨found, first, second, known, encoding, rfl, operand, plain⟩ := load?_eq_some loads
  have keyed := keyed_expressionArg? (keyed_instruction? known) second expr operand
  obtain ⟨encoded, quiet⟩ := encoded_of_generates generates known
  rw [encoding, encode_loadS operand plain] at encoded quiet
  rw [encoded]
  exact shows_loadS keyed (opened_second generates.second _) constant quiet

theorem shows_of_shift {shift : Context.Shift} (shifts : context.shift? fields = some shift)
    (generates : context.Generates fields generated) :
    ∃ n, (context.opened fields.location).constant? shift.count = some n ∧
      Shows ((machineInstruction fields).run context).2.statement
        (ShiftsBy shift.gh shift.i shift.right n) := by
  obtain ⟨found, first, second, known, encoding, register, operand⟩ := shift?_eq_some shifts
  have keyed := keyed_expressionArg? (keyed_instruction? known) second shift.count operand
  obtain ⟨encoded, quiet⟩ := encoded_of_generates generates known
  rw [encoding, encode_shift operand, register] at encoded quiet
  rw [encoded]
  exact shows_shift keyed (opened_second generates.second _) quiet

/-- Statements that generate the same load the same constant, but for masks with no ones and with no
zeros, and shift by the same count, but for shifts to the right by 0 and by 64. The contexts may
differ. -/
theorem operands_of_generated {here there : Context} {one other : Fields}
    (first : here.Generates one generated) (second : there.Generates other generated) :
    (∀ i expr expr' v w, here.load? one = some (i, expr) → there.load? other = some (i, expr') →
      (here.opened one.location).constant? expr = some v →
      (there.opened other.location).constant? expr' = some w → v = w ∨ Clash expr expr' v w) ∧
    ∀ gh i right count count', here.shift? one = some ⟨gh, i, right, count⟩ →
      there.shift? other = some ⟨gh, i, right, count'⟩ →
      ∃ n m, (here.opened one.location).constant? count = some n ∧
        (there.opened other.location).constant? count' = some m ∧
        (n = m ∨ right = true ∧ (n = 0 ∧ m = 64 ∨ n = 64 ∧ m = 0)) := by
  have same := first.generated.trans second.generated.symm
  constructor
  · intro i expr expr' v w load load' constant constant'
    obtain ⟨code, here, there⟩ := (shows_of_load load first constant).meet
      (shows_of_load load' second constant') same
    exact here.inj there rfl
  · intro gh i right count count' shift shift'
    obtain ⟨n, constant, shown⟩ := shows_of_shift shift first
    obtain ⟨m, constant', shown'⟩ := shows_of_shift shift' second
    obtain ⟨code, here, there⟩ := shown.meet shown' same
    exact ⟨n, m, constant, constant', here.inj there rfl⟩

/-- The start of pass 2 over a program without lines. -/
def secondStart : Context := (Context.initial {} ⟨"", "", ""⟩ "MAIN").startPass .two

/-- A statement that changes the register S1. -/
def intoS1 (operand : String) : Fields := ⟨"", "S1", operand, 0⟩

theorem instruction?_intoS1 {operand : String} {found : Matcher.Found InstructionSet.Rule}
    (member : (operand, found) ∈ InstructionSet.intoS1Found) :
    secondStart.instruction? (intoS1 operand) = some found := by
  have flexible : secondStart.settings.flexible = false := rfl
  unfold Context.instruction?
  rw [flexible]
  exact InstructionSet.table_checked.2.2.2.2.2 (operand, found) member

/-- What is generated where the instruction is known, so that it is not looked up again. -/
theorem generates_intoS1 {operand : String} {found : Matcher.Found InstructionSet.Rule}
    {generated : List String} (member : (operand, found) ∈ InstructionSet.intoS1Found)
    (placed : let after := ((placeInstruction "" found.handler found.args).run secondStart).2
      after.statement.diagnostics.hasErrors = false ∧ after.statement.generated = generated) :
    secondStart.Generates (intoS1 operand) generated := by
  have allowed : secondStart.currentSection.type.allowsInstructions = true := by decide +kernel
  have run := machineInstruction_of_found (instruction?_intoS1 member)
  rw [if_pos allowed] at run
  refine ⟨rfl, ?_, ?_⟩
  · rw [run]
    exact placed.1
  · rw [run]
    exact placed.2

theorem load?_intoS1 {operand : String} {expr : Expr}
    (member : (operand, InstructionSet.loadFound expr) ∈ InstructionSet.intoS1Found)
    (plain : isLiteral expr = false) : secondStart.load? (intoS1 operand) = some (1, expr) := by
  have kept : (some expr).filter (fun expr => !isLiteral expr) = some expr := by
    rw [Option.filter_some, plain]
    rfl
  unfold Context.load?
  rw [instruction?_intoS1 member]
  exact congrArg (Option.map fun expr => (1, expr)) kept

theorem shift?_intoS1 {operand : String} {expr : Expr} {gh : Nat} {right : Bool}
    (member : (operand, InstructionSet.shiftFound expr gh right) ∈ InstructionSet.intoS1Found) :
    secondStart.shift? (intoS1 operand) = some ⟨gh, 1, right, expr⟩ := by
  unfold Context.shift?
  rw [instruction?_intoS1 member]
  rfl

/-- A sum is taken for its value. -/
theorem operands_of_generated_sums :
    let place := secondStart.opened ""
    let five : Expr := .number "5"
    let sum : Expr := .binary .add (.number "2") (.number "3")
    (∃ v w, place.constant? five = some v ∧ place.constant? sum = some w ∧
      (v = w ∨ Clash five sum v w)) ∧
    ∃ n m, place.constant? five = some n ∧ place.constant? sum = some m ∧
      (n = m ∨ false = true ∧ (n = 0 ∧ m = 64 ∨ n = 64 ∧ m = 0)) := by
  intro place five sum
  have load : ("5", InstructionSet.loadFound five) ∈ InstructionSet.intoS1Found := by
    decide +kernel
  have load' : ("2+3", InstructionSet.loadFound sum) ∈ InstructionSet.intoS1Found := by
    decide +kernel
  have shift : ("S1<5", InstructionSet.shiftFound five 0o054 false) ∈ InstructionSet.intoS1Found := by
    decide +kernel
  have shift' : ("S1<2+3", InstructionSet.shiftFound sum 0o054 false) ∈
      InstructionSet.intoS1Found := by
    decide +kernel
  have first : secondStart.Generates (intoS1 "5") ["040100 000005"] :=
    generates_intoS1 load (by decide +kernel)
  have second : secondStart.Generates (intoS1 "2+3") ["040100 000005"] :=
    generates_intoS1 load' (by decide +kernel)
  have third : secondStart.Generates (intoS1 "S1<5") ["054105"] :=
    generates_intoS1 shift (by decide +kernel)
  have fourth : secondStart.Generates (intoS1 "S1<2+3") ["054105"] :=
    generates_intoS1 shift' (by decide +kernel)
  have number : place.constant? five = some 5 := by decide +kernel
  have total : place.constant? sum = some 5 := by decide +kernel
  exact ⟨⟨5, 5, number, total, (operands_of_generated first second).1 1 five sum 5 5
    (load?_intoS1 load rfl) (load?_intoS1 load' rfl) number total⟩,
    (operands_of_generated third fourth).2 _ _ _ _ _ (shift?_intoS1 shift) (shift?_intoS1 shift')⟩

/-- Masks with no ones and with no zeros are loaded by the same code, and shifts to the right by 0 and
by 64 are the same instruction. -/
theorem operands_confused :
    let place := secondStart.opened ""
    let none : Expr := .number "0"
    let all : Expr := .number "64"
    (secondStart.Generates (intoS1 ">0") ["042100"] ∧
      secondStart.Generates (intoS1 ">64") ["042100"] ∧
      secondStart.load? (intoS1 ">0") = some (1, .unary .maskRight none) ∧
      secondStart.load? (intoS1 ">64") = some (1, .unary .maskRight all) ∧
      place.constant? (.unary .maskRight none) = some 0 ∧
      place.constant? (.unary .maskRight all) = some (~~~0)) ∧
    secondStart.Generates (intoS1 "S1>0") ["055100"] ∧
      secondStart.Generates (intoS1 "S1>64") ["055100"] ∧
      secondStart.shift? (intoS1 "S1>0") = some ⟨0o055, 1, true, none⟩ ∧
      secondStart.shift? (intoS1 "S1>64") = some ⟨0o055, 1, true, all⟩ ∧
      place.constant? none = some 0 ∧ place.constant? all = some 64 := by
  intro place none all
  have load : (">0", InstructionSet.loadFound (.unary .maskRight none)) ∈
      InstructionSet.intoS1Found := by
    decide +kernel
  have load' : (">64", InstructionSet.loadFound (.unary .maskRight all)) ∈
      InstructionSet.intoS1Found := by
    decide +kernel
  have shift : ("S1>0", InstructionSet.shiftFound none 0o055 true) ∈ InstructionSet.intoS1Found := by
    decide +kernel
  have shift' : ("S1>64", InstructionSet.shiftFound all 0o055 true) ∈ InstructionSet.intoS1Found := by
    decide +kernel
  exact ⟨⟨generates_intoS1 load (by decide +kernel), generates_intoS1 load' (by decide +kernel),
    load?_intoS1 load rfl, load?_intoS1 load' rfl, by decide +kernel, by decide +kernel⟩,
    generates_intoS1 shift (by decide +kernel), generates_intoS1 shift' (by decide +kernel),
    shift?_intoS1 shift, shift?_intoS1 shift', by decide +kernel, by decide +kernel⟩

end Statements

end Asm

end CrayAssembler
