import CrayAssembler.Proofs.Assembly.Expansion
import CrayAssembler.Proofs.Assembly.Session

namespace CrayAssembler

namespace Context

/-- A context between statements. -/
def rest (context : Context) : Context :=
  { context with statement := {} }

/-- A line of the source is begun. -/
def begun (context : Context) (line : SourceLine) : Context :=
  { context with
    statement :=
      { line := line.number
        diagnostics :=
          if line.truncated then (DiagnosticSet.empty).insert (.warning .truncation) else .empty } }

/-- The diagnostics of a statement are counted and reported. -/
def counted (context : Context) (number : LineNumber) (text : String) (diagnostics : DiagnosticSet) :
    Context :=
  let faults := diagnostics.toList.filter (· ≠ .moduleEnd)
  { context with
    tally := context.tally.add diagnostics
    reports := if faults.isEmpty then context.reports else context.reports.push ⟨number, text, faults⟩ }

/-- What finishing the current statement leaves, but for the listing. -/
def finished (context : Context) (text : String) : Context :=
  let next := if context.statement.diagnostics.contains .moduleEnd then context.rest.left else context.rest
  if context.pass = .two then
    next.counted context.statement.line text context.statement.diagnostics
  else next

end Context

namespace Asm

theorem nonempty_of_isIdentifier {name : String} (identifier : Fields.isIdentifier name) :
    ¬ name.isEmpty := by
  intro empty
  rw [String.isEmpty_iff.mp empty] at identifier
  exact absurd identifier (by decide)

section Lines

theorem run_pushFrame_eq (kind : FrameKind) (lines : List String) (context : Context) :
    (pushFrame kind lines).run context = ((), { context with
      statement := { context.statement with
        frameChange := if lines.isEmpty then context.statement.frameChange
          else .push ⟨kind, context.statement.line, lines⟩ } }) := by
  unfold pushFrame
  split <;> rfl

theorem run_assembleBody (line : SourceLine) (context : Context) :
    (assembleBody line.number line.text line.truncated).run context =
      (assembleLine line.text).run (context.begun line) := by
  unfold Context.begun
  cases line.truncated <;> rfl

theorem record_eq (statement : StatementState) (text : String) (edited : Option String)
    (origin : Option FrameKind) (context : Context) :
    ∃ listing, ((record statement text edited origin).run context).2 =
      { context.counted statement.line text statement.diagnostics with listing } := by
  unfold record Context.counted
  rw [StateT.run_bind, StateT.run_get, pure_bind]
  dsimp only
  rw [StateT.run_bind, StateT.run_modify, pure_bind]
  cases (statement.diagnostics.toList.filter (· ≠ .moduleEnd)).isEmpty with
  | true =>
    simp only [Bool.not_true, Bool.false_eq_true, if_false, Bool.or_false]
    split
    · exact ⟨_, rfl⟩
    · exact ⟨_, rfl⟩
  | false =>
    simp only [Bool.not_false, Bool.or_true, if_true]
    exact ⟨_, rfl⟩

theorem finishStatement_eq (text : String) (edited : Option String) (origin : Option FrameKind)
    (context : Context) :
    ∃ listing, ((finishStatement text edited origin).run context).2 =
      { context.finished text with listing } := by
  have ending (next : Context) :
      ∃ listing, ((do
        if (← get).pass = .two then record context.statement text edited origin
        return context.statement.frameChange : AsmM FrameChange).run next).2 =
        { (if next.pass = .two then
            next.counted context.statement.line text context.statement.diagnostics else next) with
          listing } := by
    rw [StateT.run_bind, StateT.run_get, pure_bind]
    split
    · exact record_eq context.statement text edited origin next
    · exact ⟨next.listing, rfl⟩
  unfold finishStatement Context.finished
  rw [StateT.run_bind, StateT.run_get, pure_bind]
  dsimp only
  rw [StateT.run_bind, StateT.run_modify, pure_bind]
  split
  · exact ending context.rest.left
  · exact ending context.rest

/-- A line of the source when all is done but to finish it. -/
def bodyOf (context : Context) (line : SourceLine) : Context :=
  ((assembleLine line.text).run (context.begun line)).2

theorem bodyOf_comment {context : Context} {line : SourceLine} (outside : context.capture = none)
    (comment : Fields.isComment line.text.toList) : bodyOf context line = context.begun line := by
  have begun : (context.begun line).capture = none := outside
  unfold bodyOf
  rw [run_assembleLine_none begun]
  unfold assembleOutside
  rw [if_pos comment]
  rfl

theorem bodyOf_statement {context : Context} {line : SourceLine} (outside : context.capture = none)
    (plain : Fields.isComment line.text.toList = false) :
    bodyOf context line =
      if (passOver (statementFields context line.text) context.skip).1 then
        met (context.begun line) line.text
      else ((dispatch (statementFields context line.text)).run (met (context.begun line) line.text)).2 := by
  have fields : statementFields (context.begun line) line.text = statementFields context line.text :=
    statementFields_withStatement context line.text _
  have begun : (context.begun line).capture = none := outside
  unfold bodyOf
  rw [run_assembleLine_outside begun plain, fields]
  rfl

/-- A line that gives no others comes to what finishing it leaves. -/
theorem assembleSourceLine_eq {context : Context} {line : SourceLine}
    (single : (bodyOf context line).statement.frameChange = .keep) :
    ∃ listing, ((assembleSourceLine line).run context).2 =
      { (bodyOf context line).finished line.text with listing } := by
  have change := assembleStatement_change line.number line.text none line.truncated context
  rw [run_assembleBody] at change
  obtain ⟨listing, finished⟩ := finishStatement_eq line.text
    ((assembleLine line.text).run (context.begun line)).1 none (bodyOf context line)
  refine ⟨listing, ?_⟩
  unfold assembleSourceLine
  rw [StateT.run_bind]
  change ((Frame.runAfter assembleFrameLine
    ((assembleStatement line.number line.text none line.truncated true).run context).1).run
    ((assembleStatement line.number line.text none line.truncated true).run context).2).2 = _
  rw [change.trans single, run_assembleStatement, run_assembleBody]
  exact finished

end Lines

section Warnings

/-- A statement that gives no lines, and of which nothing more was noticed than to be warned of. -/
structure Mild (statement : StatementState) : Prop where
  warnings : ∀ d ∈ statement.diagnostics.toList, d.isWarning
  keep : statement.frameChange = .keep

theorem warnings_insert {set : DiagnosticSet} (warnings : ∀ d ∈ set.toList, d.isWarning)
    (kind : WarningKind) : ∀ d ∈ (set.insert (.warning kind)).toList, d.isWarning := by
  intro d member
  rcases Bool.or_eq_true_iff.mp (List.mem_filter.mp member).2 with new | old
  · rw [eq_of_beq new]
    rfl
  · exact warnings d (List.contains_iff_mem.mp old)

theorem errorCount_of_warnings {set : DiagnosticSet} (warnings : ∀ d ∈ set.toList, d.isWarning) :
    set.errorCount = 0 := by
  refine List.countP_eq_zero.mpr fun d member => ?_
  have warning := warnings d member
  cases d with
  | error kind => nomatch warning
  | warning kind => exact Bool.false_ne_true
  | moduleEnd => nomatch warning

theorem mild_begun (context : Context) (line : SourceLine) : Mild (context.begun line).statement := by
  refine ⟨?_, rfl⟩
  unfold Context.begun
  have none : ∀ d ∈ (DiagnosticSet.empty).toList, d.isWarning := fun _ member => nomatch member
  split
  · exact warnings_insert none _
  · exact none

theorem Mild.met {context : Context} (mild : Mild context.statement) (text : String) :
    Mild (met context text).statement := by
  refine ⟨?_, mild.keep⟩
  unfold Asm.met
  dsimp only
  split
  · exact warnings_insert mild.warnings _
  · exact mild.warnings

theorem Mild.stays_inside {statement : StatementState} (mild : Mild statement) :
    ¬ statement.diagnostics.contains .moduleEnd := fun ended =>
  nomatch mild.warnings .moduleEnd (List.contains_iff_mem.mp ended)

end Warnings

end Asm

end CrayAssembler
