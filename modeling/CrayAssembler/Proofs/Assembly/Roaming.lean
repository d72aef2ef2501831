import CrayAssembler.Proofs.Assembly.Directives

namespace CrayAssembler

namespace Asm

/-- What an invariant of an assembly has to survive: whatever is done in one module, and that modules
are added, entered and closed. -/
structure Persists (I : Context → Prop) : Prop where
  inside : ∀ {α : Type} {action : AsmM α},
    (∀ K V image, Survives K V → Roams (.keeping K) V image → Keeps K action) → Keeps I action
  closable : Closable I
  addModule : ∀ {context : Context} (name : String), I context →
    I { context with modules := context.modules ++ [.make name] }
  enter : ∀ {context : Context} (index : Nat), I context → I (context.entered index)

section Modules

variable {I : Context → Prop} (persists : Persists I)

include persists

theorem Persists.quiet {α : Type} {action : AsmM α} (keeps : ∀ K V, Survives K V → Keeps K action) :
    Keeps I action :=
  persists.inside fun K V _ survives _ => keeps K V survives

theorem Persists.enterModule (index : Nat) : Keeps I (enterModule index) := by
  refine Keeps.bind (.modify fun _ holds => persists.enter index holds) fun _ => ?_
  exact persists.quiet fun _ _ survives => survives.modifyStatement fun _ => rfl

theorem Persists.moves : Moves (.keeping I) where
  note d := persists.quiet fun _ _ survives => survives.note d
  toSees := sees_keeping
  addModule name := Keeps.modify fun _ holds => persists.addModule name holds
  enterModule := persists.enterModule
  closeModule := persists.closable.closeModule

theorem Persists.directive (directive : Directive) (fields : Fields) :
    Keeps I (directive.run fields) := by
  by_cases opens : directive = .openModule
  · rw [opens]
    exact persists.moves.openModule fields
  by_cases closes : directive = .endModule
  · rw [closes]
    exact persists.moves.endModule fields
  · exact persists.inside fun _ _ _ _ roams => roams.directive opens closes fields

/-- Statements keep the invariant if it survives that they are finished. -/
theorem Persists.assembles
    (finish : ∀ text edited origin, Keeps I (finishStatement text edited origin)) :
    Assembles I I where
  onward _ holds := holds
  quiet := persists.quiet
  instruction fields := persists.inside fun _ _ _ _ roams => roams.machineInstruction fields
  directive directive fields := (persists.directive directive fields).takes
  refuse := persists.quiet fun _ _ survives => survives.refuseFrame
  finish text edited origin := (finish text edited origin).takes

end Modules

end Asm

end CrayAssembler
