import CrayAssembler.Proofs.Assembly.Finishing
import CrayAssembler.Proofs.Likeness.Basic

namespace CrayAssembler

namespace Context

/-- A context without what is only written. How much is to be seen of the statement is given. -/
def masked (seen : StatementState → StatementState) (context : Context) : Context :=
  { context with
    statement := seen context.statement
    tally := { errors := context.tally.errors }
    listing := #[]
    reports := #[] }

/-- A context between statements, without what is only written. -/
def unlogged (context : Context) : Context :=
  context.masked fun _ => {}

end Context

/-- The contexts are the same but for what is only written. -/
def Veiled (seen : StatementState → StatementState) (here there : Context) : Prop :=
  here.masked seen = there.masked seen

namespace Veiled

variable {seen : StatementState → StatementState} {here there : Context}

theorem view_eq {α : Type} (veiled : Veiled seen here there) (view : Context → α)
    (same : ∀ context : Context, view (context.masked seen) = view context) :
    view here = view there := by
  rw [← same here, veiled, same there]

/-- Both contexts are changed alike, as far as they are seen. -/
theorem along (veiled : Veiled seen here there) {change : Context → Context}
    (image : Context → Context)
    (commutes : ∀ context : Context, (change context).masked seen = image (context.masked seen)) :
    Veiled seen (change here) (change there) := by
  unfold Veiled
  rw [commutes, veiled, commutes]

theorem statement (veiled : Veiled seen here there) : seen here.statement = seen there.statement :=
  congrArg Context.statement veiled

/-- Statements that are seen alike. -/
theorem state (veiled : Veiled seen here there) {further : StatementState → StatementState}
    {statement other : StatementState} (same : further statement = further other) :
    Veiled further { here with statement } { there with statement := other } := by
  have rest := congrArg (fun context : Context => { context with statement := further statement }) veiled
  refine rest.trans ?_
  rw [same]
  rfl

theorem unlogged (veiled : Veiled seen here there) : here.unlogged = there.unlogged :=
  @Veiled.state _ _ _ veiled (fun _ => {}) _ _ rfl

end Veiled

namespace Asm

/-- Directives and machine instructions do not depend on what is only written, if what is to be seen of a
statement after a change is settled by what is seen of it before. -/
theorem likeness_veiled {seen : StatementState → StatementState}
    (kept : ∀ (change : StatementState → StatementState) {statement other : StatementState},
      seen statement = seen other → seen (change statement) = seen (change other)) :
    Likeness (Veiled seen) where
  sight veiled := veiled.view_eq Context.sight fun _ => rfl
  callable veiled name := veiled.view_eq (fun context => (context.findMacro? name).isSome) fun _ => rfl
  modules {_ _ change} _ _ veiled :=
    @Veiled.along _ _ _ veiled (Context.modifyModule · change) (Context.modifyModule · change) fun _ => rfl
  statements _ veiled := veiled.state (kept _ veiled.statement)
  besides other veiled :=
    @Veiled.along _ _ _ veiled (Context.beside · other) (Context.beside · other) fun _ => rfl
  opened name veiled :=
    let opened (context : Context) := { context with modules := context.modules ++ [Module.make name] }
    @Veiled.along _ _ _ veiled opened opened fun _ => rfl
  cleared veiled := veiled.state
    (kept (fun statement => { statement with frameChange := .clear }) veiled.statement)
  captures {_ _ capture} _ veiled :=
    let captured (context : Context) := { context with capture := some capture }
    @Veiled.along _ _ _ veiled captured captured fun _ => rfl
  listings _ veiled := veiled

theorem likeness_unlogged : Likeness (Veiled fun _ => {}) :=
  likeness_veiled fun _ _ _ _ => rfl

/-- Statements do the same in related contexts: these differ only in what is only written. They are
changed outside of their modules without harm. What becomes of a macro that is entered is left open. -/
structure Sameness (M : Context → Context → Prop) : Prop extends Likeness M where
  veiled : ∀ {here there}, M here there → Veiled id here there
  others : ∀ {here there} {change : Context → Context},
    (∀ context, (change context).modules = context.modules) →
    (∀ context, (change context).masked id = (change (context.masked id)).masked id) →
    M here there → M (change here) (change there)

theorem sameness_veiled : Sameness (Veiled id) where
  toLikeness := likeness_veiled fun change _ _ same => congrArg change same
  veiled veiled := veiled
  others {_ _ change} _ commutes veiled :=
    @Veiled.along _ _ _ veiled change (fun context => (change context).masked id) commutes

namespace Sameness

variable {M : Context → Context → Prop} (sameness : Sameness M) {here there : Context}

include sameness

/-- What follows must not ask for what is only written. -/
theorem bindGet {α : Type} {next : Context → AsmM α}
    (same : ∀ context : Context, next (context.masked id) = next context)
    (each : ∀ context, Together M (next context)) : Together M (get >>= next) :=
  .bindSame (fun _ _ alike => (sameness.veiled alike).view_eq next same) each

theorem modify {change : Context → Context}
    (modules : ∀ context, (change context).modules = context.modules)
    (commutes : ∀ context, (change context).masked id = (change (context.masked id)).masked id) :
    Together M (modify change : AsmM PUnit) :=
  .modify fun _ _ => sameness.others modules commutes

theorem pushFrame (kind : FrameKind) (lines : List String) :
    Together M (pushFrame kind lines) := by
  unfold Asm.pushFrame
  split
  · exact .pure _
  · exact sameness.modify (fun _ => rfl) fun _ => rfl

theorem dispatch (fields : Fields) : Together M (dispatch fields) := by
  unfold Asm.dispatch
  split
  · split
    · exact sameness.error _
    · exact .pure _
  · refine sameness.bindGet (fun _ => rfl) fun context => ?_
    refine sameness.bindGet (fun _ => rfl) fun context => ?_
    split
    · split
      · exact sameness.pushFrame _ _
      · exact sameness.error _
    · split
      · exact sameness.directive _ _
      · exact sameness.machineInstruction _

theorem skipping (fields : Fields) : Together M (skipping fields) := by
  refine sameness.bindGet (fun _ => rfl) fun context => ?_
  refine Together.bind (sameness.modify (fun _ => rfl) fun _ => rfl) fun _ => ?_
  exact .pure _

theorem captureLine {capture : Capture} {line : String} (alike : M here there)
    (defines : ∀ prototype body, capture = .definition prototype body →
      endsCapture line prototype.name "ENDM" → Meets M (defineMacro prototype body) here there) :
    Meets M (captureLine capture line) here there := by
  have into : Meets M (captureInto capture line) here there := by
    unfold captureInto
    split
    case h_1 =>
      unfold capturePrototype
      split
      · exact ⟨rfl, alike⟩
      split
      · exact ⟨rfl, alike⟩
      · exact sameness.fail _ _ _ _ alike
    case h_2 prototype body =>
      split
      case isTrue ends => exact (defines prototype body rfl ends).bind fun _ => .pure _
      case isFalse => exact ⟨rfl, alike⟩
    case h_3 =>
      dsimp only
      split
      · exact (sameness.pushFrame _ _ _ _ alike).bind fun _ => .pure _
      · exact ⟨rfl, alike⟩
    case h_4 =>
      split
      · exact (sameness.pushFrame _ _ _ _ alike).bind fun _ => .pure _
      · exact ⟨rfl, alike⟩
  exact into.bind fun _ => sameness.modify (fun _ => rfl) fun _ => rfl

theorem assembleOutside (context : Context) (line : String) :
    Together M (assembleOutside context line) := by
  unfold Asm.assembleOutside
  split
  · exact .pure _
  refine .complain (sameness.warn _) ?_
  refine (sameness.skipping _).bind fun skipped => ?_
  have changed (edited : Micro.Substituted) : Together M
      (return if edited.changed then some edited.text else none : AsmM (Option String)) := .pure _
  dsimp only
  split
  · exact (sameness.dispatch _).bind fun _ => changed _
  · exact changed _

/-- A line is assembled alike if what becomes of a definition that it ends is. -/
theorem assembleLine {line : String} (alike : M here there)
    (defines : ∀ prototype body, there.capture = some (.definition prototype body) →
      endsCapture line prototype.name "ENDM" → Meets M (defineMacro prototype body) here there) :
    Meets M (assembleLine line) here there := by
  have same := (sameness.veiled alike).view_eq (Asm.assembleOutside · line) fun _ => rfl
  have captures := (sameness.veiled alike).view_eq Context.capture fun _ => rfl
  cases inside : there.capture with
  | none =>
    unfold Meets
    rw [run_assembleLine_none (captures.trans inside), run_assembleLine_none inside, same]
    exact sameness.assembleOutside there line here there alike
  | some capture =>
    have captured : Meets M (Asm.captureLine capture line) here there :=
      sameness.captureLine alike fun prototype body definition =>
        defines prototype body (definition ▸ inside)
    unfold Meets
    rw [run_assembleLine_some (captures.trans inside), run_assembleLine_some inside]
    exact ⟨rfl, captured.2⟩

theorem refuseFrame : Together M refuseFrame := by
  refine sameness.bindGet (fun _ => rfl) fun context => ?_
  split
  · exact (sameness.error _).bind fun _ => sameness.modify (fun _ => rfl) fun _ => rfl
  · exact .pure _
  · exact .pure _

theorem record (statement : StatementState) (text : String) (edited : Option String)
    (origin : Option FrameKind) : Together M (record statement text edited origin) := by
  refine sameness.bindGet (fun _ => rfl) fun context => ?_
  refine Together.bind (sameness.modify (fun _ => rfl) fun _ => rfl) fun _ => ?_
  refine .complain (sameness.modify (fun _ => rfl) fun _ => rfl) ?_
  split
  · exact sameness.modify (fun _ => rfl) fun _ => rfl
  · exact .pure _

theorem finishStatement (text : String) (edited : Option String) (origin : Option FrameKind) :
    Together M (finishStatement text edited origin) := by
  refine sameness.bindGet (fun _ => rfl) fun context => ?_
  refine Together.bind (sameness.modify (fun _ => rfl) fun _ => rfl) fun _ => ?_
  refine .complain (sameness.modify (fun _ => rfl) fun _ => rfl) ?_
  refine sameness.bindGet (fun _ => rfl) fun context => ?_
  exact .complain (sameness.record _ _ _ _) (.pure _)

/-- A statement does the same in contexts that are related once it is begun. -/
theorem assembleStatement {number : LineNumber} {text : String} {truncated : Bool}
    (begun : M (here.begun ⟨number, text, truncated⟩) (there.begun ⟨number, text, truncated⟩))
    (defines : ∀ prototype body, there.capture = some (.definition prototype body) →
      endsCapture text prototype.name "ENDM" → Meets M (defineMacro prototype body)
        (here.begun ⟨number, text, truncated⟩) (there.begun ⟨number, text, truncated⟩))
    (origin : Option FrameKind) (mayNest : Bool) :
    Meets M (assembleStatement number text origin truncated mayNest) here there := by
  have run (context : Context) :
      (Asm.assembleStatement number text origin truncated mayNest).run context = (do
        let edited ← Asm.assembleLine text
        if !mayNest then Asm.refuseFrame
        Asm.finishStatement text edited origin : AsmM FrameChange).run
          (context.begun ⟨number, text, truncated⟩) := by
    unfold Context.begun
    cases truncated <;> rfl
  unfold Meets
  rw [run, run]
  refine (sameness.assembleLine begun defines).bind fun edited => ?_
  exact .complain sameness.refuseFrame (sameness.finishStatement _ _ _)

end Sameness

/-- A statement does the same in contexts that have all in common but what is only written. -/
theorem unlogged_assembleStatement (number : LineNumber) (text : String)
    (origin : Option FrameKind) (truncated mayNest : Bool) :
    Together (Veiled fun _ => {}) (assembleStatement number text origin truncated mayNest) := by
  intro here there veiled
  have defines (prototype : Prototype) (body : List String) :
      Together (Veiled id) (defineMacro prototype body) := by
    refine sameness_veiled.bindGet (fun _ => rfl) fun context => ?_
    refine .complain (sameness_veiled.warn _) (.modify fun _ _ veiled => ?_)
    let entered (context' : Context) := context'.modifyModule fun module =>
      { module with macros := module.macros.insert prototype.name (.make prototype body context.pass) }
    exact @Veiled.along _ _ _ veiled entered entered fun _ => rfl
  have begun : Veiled id (here.begun ⟨number, text, truncated⟩)
      (there.begun ⟨number, text, truncated⟩) := veiled.state rfl
  obtain ⟨same, after⟩ := sameness_veiled.assembleStatement begun
    (fun prototype body _ _ => defines prototype body _ _ begun) origin mayNest
  exact ⟨same, after.unlogged⟩

/-- A line of the source, and all that it gives, does not depend on what is only written. -/
theorem unlogged_assembleSourceLine (line : SourceLine) :
    Together (Veiled fun _ => {}) (assembleSourceLine line) :=
  (likeness_unlogged.regard.sourceLine (fun number text origin truncated mayNest =>
    (unlogged_assembleStatement number text origin truncated mayNest).keeps) line).1

end Asm

end CrayAssembler
