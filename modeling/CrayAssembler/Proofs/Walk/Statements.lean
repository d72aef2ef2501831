import CrayAssembler.Proofs.Walk.Keeping

namespace CrayAssembler

namespace Asm

/-- What is needed of an invariant for it to hold between statements: `J` holds in their midst, where
a module may have been closed that is not left yet. -/
structure Assembles (I J : Context → Prop) : Prop where
  onward : ∀ context, I context → J context
  quiet : ∀ {α : Type} {action : AsmM α}, (∀ K V, Survives K V → Keeps K action) → Keeps I action
  instruction : ∀ fields, Keeps I (machineInstruction fields)
  directive : ∀ (directive : Directive) (fields : Fields), Takes I (directive.run fields) J
  refuse : Keeps J refuseFrame
  finish : ∀ text edited origin, Takes J (finishStatement text edited origin) I

section Lines

variable {I J : Context → Prop} (assembles : Assembles I J)

include assembles

/-- What keeps the invariant may be all that a statement does. -/
theorem Assembles.midway {α : Type} {action : AsmM α} (keeps : Keeps I action) : Takes I action J :=
  fun context holds => assembles.onward _ (keeps context holds).1

theorem Assembles.dispatchNamed (fields : Fields) : Takes I (dispatchNamed fields) J := by
  refine Takes.bindGet fun context => ?_
  split
  · split
    · exact assembles.midway (assembles.quiet fun _ _ survives => survives.pushFrame _ _)
    · exact assembles.midway (assembles.quiet fun _ _ survives => survives.error _)
  · split
    · exact assembles.directive _ _
    · exact assembles.midway (assembles.instruction _)

theorem Assembles.dispatch (fields : Fields) : Takes I (dispatch fields) J := by
  unfold Asm.dispatch
  split
  · split
    · exact assembles.midway (assembles.quiet fun _ _ survives => survives.error _)
    · exact assembles.midway (.pure _)
  · exact Takes.bindGet fun context => assembles.dispatchNamed _

theorem Assembles.assembleLine (line : String) : Takes I (assembleLine line) J := by
  refine Takes.bindGet fun context => ?_
  split
  · refine (assembles.quiet fun _ _ survives => survives.captureLine _ line).takesBind fun _ => ?_
    exact assembles.midway (.pure _)
  split
  · exact assembles.midway (.pure _)
  refine Takes.complain (assembles.quiet fun _ _ survives => survives.warn _) ?_
  refine (assembles.quiet fun _ _ survives => survives.skipping _).takesBind fun skipped => ?_
  cases skipped with
  | false => exact (assembles.dispatch _).bind fun _ => (Keeps.pure _).takes
  | true => exact assembles.midway (.pure _)

theorem Assembles.assembleStatement (number : LineNumber) (text : String)
    (origin : Option FrameKind) (truncated mayNest : Bool) :
    Keeps I (assembleStatement number text origin truncated mayNest) := by
  have begun : Keeps I (modify fun context =>
      { context with statement := { line := number } } : AsmM PUnit) :=
    assembles.quiet fun _ _ survives => .modify fun _ kept => survives.aside .cleared kept
  refine Takes.keeps (begun.takesBind fun _ => ?_)
  refine Takes.complain (assembles.quiet fun _ _ survives => survives.warn _) ?_
  refine (assembles.assembleLine text).bind fun edited => ?_
  split
  · exact assembles.refuse.takesBind fun _ => assembles.finish text edited origin
  · exact assembles.finish text edited origin

end Lines

section Frames

variable {I J : Context → Prop} (assembles : Assembles I J)

include assembles

theorem Assembles.assembleSourceLine (line : SourceLine) : Keeps I (assembleSourceLine line) :=
  (Regard.keeping I).sourceLine assembles.assembleStatement line

theorem Assembles.lines (lines : List SourceLine) : Keeps I (lines.forM Asm.assembleSourceLine) :=
  Keeps.forM fun line _ => assembles.assembleSourceLine line

/-- What a pass ends with is what the closing of the anonymous module leads to. -/
theorem Assembles.finishPass {Q : Context → Prop} (line : LineNumber)
    (closing : Takes I (closeAnonymousModule line) Q) : Takes I (finishPass line) Q := by
  have uncaptured : Keeps I
      (modify fun context => { context with capture := none } : AsmM PUnit) :=
    assembles.quiet fun _ _ survives => .modify fun _ kept => survives.aside .same kept
  have unskipped : Keeps I (modify fun context => { context with skip := none } : AsmM PUnit) :=
    assembles.quiet fun _ _ survives => .modify fun _ kept => survives.aside .same kept
  refine uncaptured.takesBind fun _ => Takes.bindGet fun context => ?_
  split
  · refine unskipped.takesBind fun _ => ?_
    exact (assembles.assembleStatement line implicitEnd none false true).discard.takesBind
      fun _ => closing
  · exact closing

end Frames

end Asm

end CrayAssembler
