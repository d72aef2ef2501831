import CrayAssembler.Assembly.Operand
import Mathlib.Data.List.Forall2

namespace CrayAssembler

namespace Asm

open Eval (EvalM Progress)

/-- Two results in a relation, or the same error. -/
inductive Alike {α : Type} (R : α → α → Prop) : Except ErrorKind α → Except ErrorKind α → Prop
  | ok {value other : α} (related : R value other) : Alike R (.ok value) (.ok other)
  | error (kind : ErrorKind) : Alike R (.error kind) (.error kind)

theorem Alike.of_same {α : Type} {R : α → α → Prop} {result : Except ErrorKind α}
    (known : ∀ value, result = .ok value → R value value) : Alike R result result := by
  cases result with
  | error kind => exact .error kind
  | ok value => exact .ok (known value rfl)

/-- How far an evaluation has come. -/
abbrev Place := Progress × Context

/-- Run a part of an evaluation. -/
def outcome {α : Type} (read : EvalM AsmM α) (place : Place) : Except ErrorKind α × Place :=
  let ((result, progress), context) := (read.run.run place.1).run place.2
  (result, progress, context)

/-- From related places two parts of evaluations lead to related places and to results that are
alike. -/
def Paired {α : Type} (J : Place → Place → Prop) (read other : EvalM AsmM α)
    (R : α → α → Prop) : Prop :=
  ∀ here there, J here there →
    J (outcome read here).2 (outcome other there).2 ∧
      Alike R (outcome read here).1 (outcome other there).1

section Logic

variable {α β : Type} {J : Place → Place → Prop} {R : α → α → Prop} {S : β → β → Prop}

theorem Paired.pure {value other : α} (related : R value other) :
    Paired J (pure value) (pure other) R :=
  fun _ _ both => ⟨both, .ok related⟩

theorem Paired.throw (kind : ErrorKind) : Paired J (throw kind) (throw kind) R :=
  fun _ _ both => ⟨both, .error kind⟩

theorem outcome_bind (read : EvalM AsmM α) (next : α → EvalM AsmM β) (place : Place) :
    outcome (read >>= next) place =
      match outcome read place with
      | (.ok value, later) => outcome (next value) later
      | (.error kind, later) => (.error kind, later) := by
  unfold outcome
  rw [ExceptT.run_bind, StateT.run_bind, StateT.run_bind]
  rcases (read.run.run place.1).run place.2 with ⟨⟨result, progress⟩, context⟩
  cases result <;> rfl

theorem Paired.bind {read other : EvalM AsmM α} {next following : α → EvalM AsmM β}
    (first : Paired J read other R)
    (second : ∀ value another, R value another → Paired J (next value) (following another) S) :
    Paired J (read >>= next) (other >>= following) S := by
  intro here there both
  have paired := first here there both
  rw [outcome_bind, outcome_bind]
  generalize outcome read here = one at paired ⊢
  generalize outcome other there = two at paired ⊢
  obtain ⟨result, after⟩ := one
  obtain ⟨result', after'⟩ := two
  obtain ⟨later, alike⟩ := paired
  cases alike with
  | ok related => exact second _ _ related after after' later
  | error kind => exact ⟨later, .error kind⟩

/-- An evaluation by itself. -/
def Alone (K : Place → Prop) (here there : Place) : Prop :=
  here = there ∧ K here

theorem Paired.alone {K : Place → Prop} {read : EvalM AsmM α}
    (kept : ∀ place, K place → K (outcome read place).2) :
    Paired (Alone K) read read (· = ·) := by
  rintro here _ ⟨rfl, holds⟩
  exact ⟨⟨rfl, kept here holds⟩, .of_same fun _ _ => rfl⟩

/-- What was noticed is changed, and nothing else. -/
theorem Paired.modify {change : Progress → Progress}
    (kept : ∀ here there, J here there → J (change here.1, here.2) (change there.1, there.2)) :
    Paired J (modify change : EvalM AsmM PUnit) (modify change) fun _ _ => True :=
  fun here there both => ⟨kept here there both, .ok trivial⟩

end Logic

section Steps

variable {J : Place → Place → Prop} {R : Value → Value → Prop}

/-- Operators take related values to results that are alike. -/
structure Compatible (R : Value → Value → Prop) : Prop where
  unary : ∀ op {value other}, R value other → Alike R (Value.unary op value) (Value.unary op other)
  binary : ∀ op {left right left' right'}, R left left' → R right right' →
    Alike (fun outcome other => R outcome.value other.value ∧
      outcome.mixedKinds = other.mixedKinds) (Value.binary op left right)
      (Value.binary op left' right')

/-- Places stay related when a warning is noted in both. -/
def Warnable (J : Place → Place → Prop) : Prop :=
  ∀ kind, Paired J (Eval.warn kind) (Eval.warn kind) fun _ _ => True

theorem paired_unary (compatible : Compatible R) (op : UnaryOp) {value other : Value}
    (related : R value other) : Paired J (Eval.unary op value) (Eval.unary op other) R := by
  unfold Eval.unary
  have alike := compatible.unary op related
  revert alike
  generalize Value.unary op value = result
  generalize Value.unary op other = result'
  rintro (⟨related⟩ | ⟨kind⟩)
  · exact .pure related
  · exact .throw kind

theorem paired_binary (compatible : Compatible R) (warnable : Warnable J) (op : BinaryOp)
    {left right left' right' : Value} (first : R left left') (second : R right right') :
    Paired J (Eval.binary op left right) (Eval.binary op left' right') R := by
  unfold Eval.binary
  have alike := compatible.binary op first second
  revert alike
  generalize Value.binary op left right = result
  generalize Value.binary op left' right' = result'
  rintro (⟨related, mixed⟩ | ⟨kind⟩)
  · dsimp only
    rw [mixed]
    split
    · exact (warnable _).bind fun _ _ _ => .pure related
    · exact .pure related
  · exact .throw kind

/-- Operands that a step reads are alike. -/
def PairedStep (J : Place → Place → Prop) (R : Value → Value → Prop) (step : Eval.Step AsmM) :
    Prop :=
  ∀ read, step = .operand read → Paired J read read R

theorem paired_step (compatible : Compatible R) (warnable : Warnable J) {step : Eval.Step AsmM}
    (reads : PairedStep J R step) {stack stack' : List Value} (related : List.Forall₂ R stack stack') :
    Paired J (Eval.step stack step) (Eval.step stack' step) (List.Forall₂ R) := by
  unfold Eval.step
  cases step with
  | operand read => exact (reads read rfl).bind fun _ _ top => .pure (.cons top related)
  | unary op =>
    cases related with
    | nil => exact .throw _
    | cons top below =>
      exact (paired_unary compatible op top).bind fun _ _ result => .pure (.cons result below)
  | binary op =>
    cases related with
    | nil => exact .throw _
    | cons top under =>
      cases under with
      | nil => exact .throw _
      | cons next below =>
        exact (paired_binary compatible warnable op next top).bind fun _ _ result =>
          .pure (.cons result below)

theorem paired_steps (compatible : Compatible R) (warnable : Warnable J)
    {steps : List (Eval.Step AsmM)} (reads : ∀ step ∈ steps, PairedStep J R step)
    {stack stack' : List Value} (related : List.Forall₂ R stack stack') :
    Paired J (steps.foldlM Eval.step stack) (steps.foldlM Eval.step stack') (List.Forall₂ R) := by
  induction steps generalizing stack stack' with
  | nil => exact .pure related
  | cons step steps ih =>
    obtain ⟨first, rest⟩ := List.forall_mem_cons.mp reads
    rw [List.foldlM_cons, List.foldlM_cons]
    exact (paired_step compatible warnable first related).bind fun _ _ later => ih rest later

theorem paired_run (compatible : Compatible R) (warnable : Warnable J)
    {steps : List (Eval.Step AsmM)} (reads : ∀ step ∈ steps, PairedStep J R step) :
    Paired J (Eval.run steps) (Eval.run steps) R := by
  refine (paired_steps compatible warnable reads .nil).bind fun stack stack' related => ?_
  cases related with
  | nil => exact .throw _
  | cons top below =>
    cases below with
    | nil => exact .pure top
    | cons => exact .throw _

theorem pairedStep_operand {read : EvalM AsmM Value} (paired : Paired J read read R) :
    ∀ step ∈ [Eval.Step.operand read], PairedStep J R step := by
  intro step member
  rw [List.mem_singleton.mp member]
  rintro _ ⟨⟩
  exact paired

theorem pairedStep_unary {steps : List (Eval.Step AsmM)} (op : UnaryOp)
    (reads : ∀ step ∈ steps, PairedStep J R step) :
    ∀ step ∈ steps ++ [.unary op], PairedStep J R step := by
  intro step member
  rcases List.mem_append.mp member with inner | last
  · exact reads step inner
  · rw [List.mem_singleton.mp last]
    exact fun _ => nofun

theorem pairedStep_binary {steps more : List (Eval.Step AsmM)} (op : BinaryOp)
    (reads : ∀ step ∈ steps, PairedStep J R step)
    (readsToo : ∀ step ∈ more, PairedStep J R step) :
    ∀ step ∈ steps ++ more ++ [.binary op], PairedStep J R step := by
  intro step member
  rcases List.mem_append.mp member with operands | last
  · rcases List.mem_append.mp operands with first | second
    · exact reads step first
    · exact readsToo step second
  · rw [List.mem_singleton.mp last]
    exact fun _ => nofun

end Steps

/-- An action comes to the same in two contexts, and leads to related contexts. -/
def Meets {α : Type} (M : Context → Context → Prop) (action : AsmM α) (here there : Context) :
    Prop :=
  (action.run here).1 = (action.run there).1 ∧ M (action.run here).2 (action.run there).2

/-- An action comes to the same in related contexts, and leads to related contexts. -/
def Together {α : Type} (M : Context → Context → Prop) (action : AsmM α) : Prop :=
  ∀ here there, M here there → Meets M action here there

section Together

variable {α β : Type} {M N : Context → Context → Prop}

theorem Together.pure (value : α) : Together M (pure value) :=
  fun _ _ related => ⟨rfl, related⟩

/-- What follows may relate the contexts in another way. -/
theorem Meets.andThen {action : AsmM α} {next : α → AsmM β} {here there : Context}
    (first : Meets M action here there)
    (second : ∀ value later after, M later after → Meets N (next value) later after) :
    Meets N (action >>= next) here there := by
  obtain ⟨same, later⟩ := first
  have rest := second (action.run here).1 _ _ later
  change _ = ((next (action.run there).1).run _).1 ∧ N _ ((next (action.run there).1).run _).2
  rw [← same]
  exact rest

theorem Meets.bind {action : AsmM α} {next : α → AsmM β} {here there : Context}
    (first : Meets M action here there) (second : ∀ value, Together M (next value)) :
    Meets M (action >>= next) here there :=
  first.andThen second

theorem Together.bind {action : AsmM α} {next : α → AsmM β} (first : Together M action)
    (second : ∀ value, Together M (next value)) : Together M (action >>= next) :=
  fun here there related => (first here there related).bind second

theorem Together.modify {change : Context → Context}
    (kept : ∀ here there, M here there → M (change here) (change there)) :
    Together M (modify change : AsmM PUnit) :=
  fun here there related => ⟨rfl, kept here there related⟩

theorem Together.forM {items : List α} {action : α → AsmM PUnit}
    (each : ∀ item, Together M (action item)) : Together M (items.forM action) := by
  induction items with
  | nil => exact .pure _
  | cons item items ih => exact (each item).bind fun _ => ih

/-- Something may be complained of first. -/
theorem Together.complain {condition : Prop} [Decidable condition] {complaint : AsmM Unit}
    {rest : AsmM β} (first : Together M complaint) (second : Together M rest) :
    Together M (if condition then complaint >>= fun _ => rest else rest) := by
  split
  · exact first.bind fun _ => second
  · exact second

/-- Evaluations that have noticed the same in related contexts. -/
def Matched (M : Context → Context → Prop) (here there : Place) : Prop :=
  here.1 = there.1 ∧ M here.2 there.2

theorem warnable_matched : Warnable (Matched M) :=
  fun _ => Paired.modify fun _ _ both => ⟨by rw [both.1], both.2⟩

theorem Paired.together {evaluation : EvalM AsmM Value}
    (paired : Paired (Matched M) evaluation evaluation (· = ·)) :
    Together M (Eval.collect evaluation) := by
  intro here there related
  have run := paired ({}, here) ({}, there) ⟨rfl, related⟩
  have collected (context : Context) : (Eval.collect evaluation).run context =
      ((outcome evaluation ({}, context)).1.map fun value =>
        ⟨value, (outcome evaluation ({}, context)).2.1.forward,
          (outcome evaluation ({}, context)).2.1.warnings⟩,
        (outcome evaluation ({}, context)).2.2) := rfl
  unfold Meets
  rw [collected, collected]
  revert run
  generalize outcome evaluation ({}, here) = one
  generalize outcome evaluation ({}, there) = two
  obtain ⟨result, progress, later⟩ := one
  obtain ⟨result', progress', after⟩ := two
  rintro ⟨⟨same, after⟩, alike⟩
  dsimp only at same alike ⊢
  subst same
  cases alike with
  | ok equal =>
    subst equal
    exact ⟨rfl, after⟩
  | error kind => exact ⟨rfl, after⟩

end Together

end Asm

end CrayAssembler
