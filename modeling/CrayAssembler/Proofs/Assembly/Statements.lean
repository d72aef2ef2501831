import CrayAssembler.Proofs.Assembly.Directives

namespace CrayAssembler

namespace Asm

variable {start : Context}

section Lines

/-- Nothing that is registered undoes the end of a module. -/
theorem closing_error (kind : ErrorKind) : Keeps (Closing start) (error kind) := by
  rintro context ⟨noted, before, statement, listing, follows, inside, rfl⟩
  refine ⟨⟨?_, before, _, listing, follows, inside, rfl⟩, trivial⟩
  exact DiagnosticSet.contains_moduleEnd_insert.mpr (.inr noted)

theorem closing_refuseFrame : Keeps (Closing start) refuseFrame := by
  have kept : Keeps (Closing start)
      (modifyStatement fun statement => { statement with frameChange := .keep }) := by
    rintro context ⟨noted, before, statement, listing, follows, inside, rfl⟩
    exact ⟨⟨noted, before, _, listing, follows, inside, rfl⟩, trivial⟩
  refine Gives.bindGet fun context _ => ?_
  split
  · exact (closing_error _).bind fun _ => kept
  · exact .pure trivial
  · exact .pure trivial

theorem midway_refuseFrame : Keeps (Midway start) refuseFrame := by
  rintro context (follows | closing)
  · exact ⟨.inl (Keeps.quietFollows (fun _ sound => (survives_quiet sound).refuseFrame) context
      follows).1, trivial⟩
  · exact ⟨.inr (closing_refuseFrame context closing).1, trivial⟩

/-- A module that was closed is left when the statement is finished. -/
theorem takes_finishStatement (text : String) (edited : Option String)
    (origin : Option FrameKind) :
    Takes (Midway start) (finishStatement text edited origin) (Follows start) := by
  have recorded (statement : StatementState) : Keeps (Follows start) (do
      if (← get).pass = .two then record statement text edited origin
      return statement.frameChange) := by
    refine Gives.bindGet fun later _ => ?_
    refine Gives.complain (Keeps.quietFollows fun _ sound => (survives_quiet sound).record
      (fun _ _ quiet => quiet.aside (.aside ..) rfl rfl) _ text edited origin) ?_
    exact .pure trivial
  have leaves : Keeps (Follows start) (modify fun context =>
      { context.resetModuleState with moduleIndex := Context.anonymousModule } : AsmM PUnit) :=
    .modify fun _ follows => follows.leave
  rintro context (follows | closing)
  · have cleared : Follows start { context with statement := {} } := follows.deed (.aside ..)
    exact (Gives.complain leaves (recorded context.statement) _ cleared).1
  · obtain ⟨noted, before, statement, listing, follows, inside, rfl⟩ := closing
    have left := follows.close inside {} listing
    unfold finishStatement
    rw [StateT.run_bind, StateT.run_get, pure_bind]
    dsimp only
    rw [if_pos noted]
    exact (recorded _ _ left).1

/-- Statements are chains of steps. -/
theorem assembles_follows : Assembles (Follows start) (Midway start) where
  onward _ := .inl
  quiet keeps := .quietFollows fun _ sound => keeps _ _ (survives_quiet sound)
  instruction fields := .follows fun _ _ => places_within.machineInstruction fields
  directive := midway_directive
  refuse := midway_refuseFrame
  finish := takes_finishStatement

/-- Whatever a statement does is a chain of steps. -/
theorem follows_assembleStatement (number : LineNumber) (text : String)
    (origin : Option FrameKind) (truncated mayNest : Bool) :
    Keeps (Follows start) (assembleStatement number text origin truncated mayNest) :=
  assembles_follows.assembleStatement number text origin truncated mayNest

end Lines

end Asm

end CrayAssembler
