import CrayAssembler.Assembly.Instruction
import CrayAssembler.Proofs.Assembly.Glance
import CrayAssembler.Proofs.Expr.Tree
import CrayAssembler.Proofs.Module.Literals
import CrayAssembler.Proofs.Walk.Keeping

namespace CrayAssembler

/-- The literals of the first pool have the same places in the second one. -/
def LiteralPool.Grown (before after : LiteralPool) : Prop :=
  ∀ key, before.contains key → after.contains key ∧ after.offset key = before.offset key

namespace LiteralPool

theorem Grown.refl (pool : LiteralPool) : pool.Grown pool :=
  fun _ known => ⟨known, rfl⟩

theorem Grown.trans {first second third : LiteralPool} (one : first.Grown second)
    (two : second.Grown third) : first.Grown third := fun key known =>
  have middle := one key known
  have last := two key middle.1
  ⟨last.1, last.2.trans middle.2⟩

theorem grown_insert (pool : LiteralPool) (key : String) (words : List Word) :
    pool.Grown (pool.insert key words) := fun _ known =>
  ⟨(contains_insert ..).mpr (.inr known), offset_insert (.inr known)⟩

end LiteralPool

/-- A module without its symbols and literals. -/
def Module.shell (module : Module) : Module :=
  { module with symbols := .empty, literals := .empty }

namespace Context

/-- A context without symbols, literals and the diagnostics of the statement. -/
def shell (context : Context) : Context :=
  { context with
    modules := context.modules.map Module.shell
    statement := { context.statement with diagnostics := .empty } }

theorem currentModule_shell (context : Context) :
    context.shell.currentModule = context.currentModule.shell := by
  unfold currentModule shell
  dsimp only
  rw [List.getD_eq_getElem?_getD, List.getD_eq_getElem?_getD, List.getElem?_map]
  cases context.modules[context.moduleIndex]? <;> rfl

theorem currentSection_shell (context : Context) :
    context.shell.currentSection = context.currentSection := by
  unfold currentSection
  rw [currentModule_shell]
  rfl

variable {context later : Context}

theorem currentModule_of_shell (same : later.shell = context.shell) :
    later.currentModule.shell = context.currentModule.shell := by
  rw [← currentModule_shell, ← currentModule_shell, same]

theorem currentSection_of_shell (same : later.shell = context.shell) :
    later.currentSection = context.currentSection := by
  rw [← currentSection_shell, ← context.currentSection_shell, same]

/-- Nothing is seen of a change of the symbols and literals. -/
theorem shell_modifyModule (context : Context) {change : Module → Module}
    (same : ∀ module : Module, (change module).shell = module.shell) :
    (context.modifyModule change).shell = context.shell := by
  have modules : (context.modules.modify context.moduleIndex change).map Module.shell =
      context.modules.map Module.shell := by
    refine List.ext_getElem? fun index => ?_
    rw [List.getElem?_map, List.getElem?_modify, List.getElem?_map]
    cases context.modules[index]? with
    | none => rfl
    | some module =>
      simp only [Option.map_some]
      split
      · exact congrArg some (same module)
      · rfl
  unfold shell
  rw [show (context.modifyModule change).modules.map Module.shell = _ from modules]
  rfl

end Context

namespace Asm

open Eval (EvalM)

/-- The second context differs from the first one in what the evaluation of an operand leaves behind:
mentions of symbols, literals and diagnostics. -/
structure Consulted (context later : Context) : Prop where
  shell : later.shell = context.shell
  lookup : ∀ name, later.lookup name = context.lookup name ∨
    (context.lookup name).isUndefined ∧ later.lookup name = .undefined
  literals : context.currentModule.literals.Grown later.currentModule.literals

namespace Consulted

variable {context middle later : Context}

theorem refl (context : Context) : Consulted context context :=
  ⟨rfl, fun _ => .inl rfl, .refl _⟩

theorem trans (first : Consulted context middle) (second : Consulted middle later) :
    Consulted context later where
  shell := second.shell.trans first.shell
  lookup name := by
    rcases first.lookup name with same | ⟨undefined, blank⟩
    · rw [← same]
      exact second.lookup name
    · refine .inr ⟨undefined, ?_⟩
      rcases second.lookup name with same | ⟨-, blank⟩
      · rw [same, blank]
      · exact blank
  literals := first.literals.trans second.literals

theorem mention (context : Context) (key : SymbolKey) : Consulted context (context.mention key) where
  shell := context.shell_modifyModule fun _ => rfl
  lookup := (Glance.mention context key).lookup
  literals := by
    obtain ⟨symbols, current, -⟩ := context.currentModule_mention key
    rw [current]
    exact .refl _

theorem register (context : Context) (d : Diagnostic) : Consulted context (context.register d) :=
  ⟨rfl, fun _ => .inl rfl, .refl _⟩

end Consulted

/-- The current module after a change of its literals. -/
theorem currentModule_literals (context : Context) (literals : LiteralPool) :
    (context.modifyModule fun module => { module with literals }).currentModule =
        { context.currentModule with literals } ∨
      (context.modifyModule fun module => { module with literals }).currentModule =
        context.currentModule := by
  by_cases current : context.moduleIndex < context.modules.length
  · exact .inl (Context.currentModule_modifyModule current _)
  · right
    unfold Context.modifyModule Context.currentModule
    rw [List.modify_eq_self (Nat.not_lt.mp current)]

theorem Consulted.insert (context : Context) (key : String) (words : List Word) :
    Consulted context (context.modifyModule fun module =>
      { module with literals := context.currentModule.literals.insert key words }) where
  shell := context.shell_modifyModule fun _ => rfl
  lookup name := by
    unfold Context.lookup
    rcases currentModule_literals context (context.currentModule.literals.insert key words) with
      same | same
    · rw [same]
      exact .inl rfl
    · rw [same]
      exact .inl rfl
  literals := by
    rcases currentModule_literals context (context.currentModule.literals.insert key words) with
      same | same
    · rw [same]
      exact LiteralPool.grown_insert _ key words
    · rw [same]
      exact .refl _

section Consulted

variable (context : Context)

theorem consults_consulted :
    Consults (.keeping (Consulted context)) (fun _ => True) False := by
  refine consults_keeping (fun d => ?_) (fun name => ?_) fun key words undefined => ?_
  · exact .modify fun _ consulted => consulted.trans (.register ..)
  · intro later consulted
    rw [run_symbol]
    exact ⟨consulted.trans (.mention ..), trivial⟩
  · intro later consulted
    have entered := consulted.trans (.insert later key words)
    refine ⟨?_, trivial⟩
    unfold placeLiteral
    rw [StateT.run_bind, StateT.run_get, pure_bind]
    dsimp only
    rw [StateT.run_bind, run_modifyModule, pure_bind]
    dsimp only
    split
    · exact entered
    · exact entered

theorem consulted_evaluateExpr (expr : Expr) :
    Consulted context ((evaluateExpr expr).run context).2 :=
  ((consults_consulted context).evaluateExpr nofun context (.refl _)).1

/-- Evaluating an operand of an instruction is nothing but consulting the context. -/
theorem consulted_operandValue (expr? : Option Expr) :
    Consulted context ((operandValue expr?).run context).2 :=
  ((consults_consulted context).operandValue nofun context (.refl _)).1

end Consulted

end Asm

end CrayAssembler
