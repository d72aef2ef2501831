import CrayAssembler.Assembly.Statement

namespace CrayAssembler

namespace Asm

/-- What keeps the lines of a frame from meaning what they mean in the source. -/
inductive Disturbance where
  /-- A frame that there was no room for. -/
  | overflow
  /-- A module was opened, which drops all frames. -/
  | cleared
deriving DecidableEq, Repr

/-- Assemble a line of a frame and stop at a disturbance. -/
def watch (room : Nat) (frame : Frame) (text : String) : ExceptT Disturbance AsmM FrameChange := do
  match ← assembleStatement frame.origin text (some frame.kind) false true, room with
  | .clear, _ => throw .cleared
  | .push _, 0 => throw .overflow
  | change, _ => return change

/-- The lines of a frame, and those that they give in turn, run to their end. -/
def Undisturbed (room : Nat) (frame : Frame) (context : Context) : Prop :=
  ((Frame.run watch room frame).run.run context).1.isOk

instance (room : Nat) (frame : Frame) (context : Context) :
    Decidable (Undisturbed room frame context) :=
  inferInstanceAs (Decidable (_ = _))

section Statements

variable {number : LineNumber} {text : String} {origin : Option FrameKind} {truncated : Bool}
  {context after : Context}

/-- A statement up to the point where its frame may be refused. -/
def assembleBody (number : LineNumber) (text : String) (truncated : Bool) :
    AsmM (Option String) := do
  modify fun context => { context with statement := { line := number } }
  if truncated then warn .truncation
  assembleLine text

theorem run_assembleStatement (number : LineNumber) (text : String) (origin : Option FrameKind)
    (truncated mayNest : Bool) (context : Context) :
    (assembleStatement number text origin truncated mayNest).run context =
      let body := (assembleBody number text truncated).run context
      let before := if mayNest then body.2 else (refuseFrame.run body.2).2
      (finishStatement text body.1 origin).run before := by
  cases truncated <;> cases mayNest <;> rfl

theorem finishStatement_change (text : String) (edited : Option String)
    (origin : Option FrameKind) (context : Context) :
    ((finishStatement text edited origin).run context).1 = context.statement.frameChange := by
  simp only [finishStatement, StateT.run_bind, StateT.run_get, pure_bind, StateT.run_modify]
  split
  · simp only [StateT.run_bind, StateT.run_get, pure_bind, StateT.run_modify]
    split <;> rfl
  · simp only [StateT.run_bind, StateT.run_get, pure_bind]
    split <;> rfl

theorem assembleStatement_change (number : LineNumber) (text : String)
    (origin : Option FrameKind) (truncated : Bool) (context : Context) :
    ((assembleStatement number text origin truncated true).run context).1 =
      ((assembleBody number text truncated).run context).2.statement.frameChange := by
  rw [run_assembleStatement]
  exact finishStatement_change ..

theorem run_refuseFrame (given : ∀ frame, context.statement.frameChange ≠ .push frame) :
    refuseFrame.run context = ((), context) := by
  unfold refuseFrame
  rw [StateT.run_bind, StateT.run_get, pure_bind]
  split
  case h_1 frame pushed => exact absurd pushed (given frame)
  · rfl
  · rfl

/-- Where no frame is given, none is refused. -/
theorem assembleStatement_mayNest {change : FrameChange}
    (assembled : (assembleStatement number text origin truncated true).run context = (change, after))
    (given : ∀ frame, change ≠ .push frame) (mayNest : Bool) :
    (assembleStatement number text origin truncated mayNest).run context = (change, after) := by
  have same := assembleStatement_change number text origin truncated context
  rw [assembled] at same
  rw [run_assembleStatement] at assembled ⊢
  dsimp only at assembled ⊢
  rw [run_refuseFrame (fun frame => same ▸ given frame), ite_self]
  exact assembled

end Statements

section Watch

variable {room more : Nat} {frame : Frame} {context after : Context}

theorem watched_bind {α β : Type} {first : ExceptT Disturbance AsmM α}
    {next : α → ExceptT Disturbance AsmM β} {value : β}
    (watched : (first >>= next).run.run context = (.ok value, after)) :
    ∃ between middle, first.run.run context = (.ok between, middle) ∧
      (next between).run.run middle = (.ok value, after) := by
  rcases outcome : first.run.run context with ⟨result, middle⟩
  rw [ExceptT.run_bind, StateT.run_bind, outcome] at watched
  cases result with
  | error reason => cases watched
  | ok between => exact ⟨between, middle, rfl, watched⟩

theorem run_lift {α : Type} (action : AsmM α) (context : Context) :
    (liftM action : ExceptT Disturbance AsmM α).run.run context =
      (.ok (action.run context).1, (action.run context).2) := rfl

theorem watched_lift {α : Type} {action : AsmM α} {value : α}
    (watched : (liftM action : ExceptT Disturbance AsmM α).run.run context = (.ok value, after)) :
    action.run context = (value, after) := by
  rw [run_lift] at watched
  injection watched with result later
  injection result with result
  exact Prod.ext result later

/-- A line that does not disturb gives a frame only where there is room for one. -/
theorem watch_ok {text : String} {change : FrameChange}
    (watched : (watch room frame text).run.run context = (.ok change, after)) :
    (assembleStatement frame.origin text (some frame.kind) false true).run context =
      (change, after) ∧ change ≠ .clear ∧ (room = 0 → change = .keep) := by
  obtain ⟨given, middle, assembled, decided⟩ := watched_bind watched
  have taken := watched_lift assembled
  cases given with
  | clear => cases decided
  | keep => cases decided; exact ⟨taken, by simp, fun _ => rfl⟩
  | push inner =>
    cases room with
    | zero => cases decided
    | succ room => cases decided; exact ⟨taken, by simp, by simp⟩

/-- Lines that run undisturbed under watch do the same without it, however their own frames are
run, so long as that agrees on undisturbed frames. -/
theorem runLines_of_watched {enter : Frame → ExceptT Disturbance AsmM Bool}
    {enterFree : Frame → AsmM Bool} (enough : room ≤ more)
    (nested : 0 < room → ∀ inner context after dropped,
      (enter inner).run.run context = (.ok dropped, after) →
        dropped = false ∧ (enterFree inner).run context = (false, after))
    {lines : List String} {dropped : Bool}
    (watched : (Frame.runLines (watch room frame) enter lines).run.run context =
      (.ok dropped, after)) :
    dropped = false ∧
      (Frame.runLines (assembleFrameLine more frame) enterFree lines).run context =
        (false, after) := by
  induction lines generalizing context with
  | nil => cases watched; exact ⟨rfl, rfl⟩
  | cons line rest ih =>
    obtain ⟨change, middle, assembled, following⟩ := watched_bind watched
    obtain ⟨taken, remains, full⟩ := watch_ok assembled
    rw [Frame.runLines, StateT.run_bind]
    cases change with
    | clear => exact absurd rfl remains
    | keep =>
      rw [assembleFrameLine, assembleStatement_mayNest taken fun _ => nofun]
      exact ih following
    | push inner =>
      have space : 0 < room := Nat.pos_of_ne_zero fun none => nomatch full none
      have nestable : decide (0 < more) = true := decide_eq_true (Nat.lt_of_lt_of_le space enough)
      obtain ⟨result, last, entered, ended⟩ := watched_bind following
      obtain ⟨rfl, free⟩ := nested space inner _ _ _ entered
      rw [assembleFrameLine, nestable, taken]
      change _ ∧ (enterFree inner >>= _).run middle = _
      rw [StateT.run_bind, free]
      exact ih ended

/-- An undisturbed frame runs the same way with any more room. -/
theorem run_of_watched (enough : room ≤ more) {dropped : Bool}
    (watched : (Frame.run watch room frame).run.run context = (.ok dropped, after)) :
    dropped = false ∧ (Frame.run assembleFrameLine more frame).run context = (false, after) := by
  induction room generalizing more frame context after dropped with
  | zero =>
    have empty : ¬ 0 < 0 := Nat.lt_irrefl 0
    cases more with
    | zero => exact runLines_of_watched enough (fun space => absurd space empty) watched
    | succ more => exact runLines_of_watched enough (fun space => absurd space empty) watched
  | succ room ih =>
    obtain ⟨more, rfl⟩ : ∃ less, more = less + 1 := ⟨more - 1, by omega⟩
    refine runLines_of_watched enough (fun _ inner context after dropped entered => ?_) watched
    exact ih (Nat.le_of_succ_le_succ enough) entered

theorem Undisturbed.run (undisturbed : Undisturbed room frame context) :
    ∃ after, ∀ more, room ≤ more →
      (Frame.run assembleFrameLine more frame).run context = (false, after) := by
  unfold Undisturbed at undisturbed
  rcases watched : (Frame.run watch room frame).run.run context with ⟨result, after⟩
  rw [watched] at undisturbed
  cases result with
  | error reason => cases undisturbed
  | ok dropped => exact ⟨after, fun more enough => (run_of_watched enough watched).2⟩

/-- Lines none of which drops the frames are run one after another. -/
theorem forM_of_runLines {assemble : String → AsmM FrameChange} {enter : Frame → AsmM Bool}
    {lines : List String}
    (ran : (Frame.runLines assemble enter lines).run context = (false, after)) :
    (lines.forM fun line => do
      match ← assemble line with
      | .push inner => discard (enter inner)
      | .keep | .clear => return ()).run context = ((), after) := by
  induction lines generalizing context with
  | nil => cases ran; rfl
  | cons line rest ih =>
    rcases assembled : (assemble line).run context with ⟨change, middle⟩
    rw [Frame.runLines, StateT.run_bind, assembled] at ran
    rw [List.forM, StateT.run_bind, StateT.run_bind, assembled]
    cases change with
    | keep => exact ih ran
    | clear => cases ran
    | push inner =>
      rcases entered : (enter inner).run middle with ⟨dropped, last⟩
      change (enter inner >>= _).run middle = _ at ran
      rw [StateT.run_bind, entered] at ran
      have passed : (discard (enter inner)).run middle = ((), ((enter inner).run middle).2) := rfl
      rw [entered] at passed
      cases dropped with
      | true => cases ran
      | false =>
        change (discard (enter inner) >>= fun _ => rest.forM _).run middle = _
        rw [StateT.run_bind, passed]
        exact ih ran

end Watch

section Expansion

variable {context : Context} {number : LineNumber} {text : String} {origin : Option FrameKind}
  {truncated : Bool} {kind : FrameKind} {lines : List String}

/-- The fields of a line that is not collected. -/
def statementFields (context : Context) (text : String) : Fields :=
  fieldsOf context (Micro.substitute text.toList context.findMicro?).text

/-- A line stands for others: it is a macro call, or it completes a group to be duplicated. -/
inductive Expands (context : Context) (text : String) : FrameKind → List String → Prop
  | call {definition : MacroDefinition} {lines : List String}
      (outside : context.capture = none) (plain : Fields.isComment text.toList = false)
      (assembled : (passOver (statementFields context text) context.skip).1 = false)
      (named : (statementFields context text).result ≠ "")
      (found : context.findMacro? ((context.findSynonym? (statementFields context text).result).getD
        (statementFields context text).result) = some definition)
      (expanded : definition.expand (statementFields context text).location
        (statementFields context text).operand = .ok lines) :
      Expands context text .call lines
  /-- The last of a given number of statements belongs to the group. -/
  | counted {name : String} {count statements : Nat} {body : List String}
      (inside : context.capture = some (.group name count (some statements) body))
      (complete : statements ≤ (body ++ [text]).countP fun line => !Fields.isComment line.toList) :
      Expands context text .group (List.replicate count (body ++ [text])).flatten
  | closed {name : String} {count : Nat} {body : List String}
      (inside : context.capture = some (.group name count none body))
      (ends : endsCapture text name "ENDDUP" = true) :
      Expands context text .group (List.replicate count body).flatten

theorem run_pushFrame (kind : FrameKind) (lines : List String) (context : Context) :
    ((pushFrame kind lines).run context).2.statement.frameChange =
      if lines.isEmpty then context.statement.frameChange
      else .push ⟨kind, context.statement.line, lines⟩ := by
  unfold pushFrame
  split <;> rfl

/-- Assemble a line that is not collected. -/
def assembleOutside (context : Context) (line : String) : AsmM (Option String) := do
  if Fields.isComment line.toList then return none
  let edited := Micro.substitute line.toList context.findMicro?
  if edited.unknown then warn .microSubstitution
  let fields := fieldsOf context edited.text
  if !(← skipping fields) then dispatch fields
  return if edited.changed then some edited.text else none

theorem run_assembleLine_none {context : Context} (outside : context.capture = none)
    (line : String) : (assembleLine line).run context = (assembleOutside context line).run context := by
  unfold assembleLine
  rw [StateT.run_bind, StateT.run_get, pure_bind]
  simp only [outside]
  rfl

theorem run_assembleLine_some {context : Context} {capture : Capture}
    (inside : context.capture = some capture) (line : String) :
    (assembleLine line).run context = (none, ((captureLine capture line).run context).2) := by
  unfold assembleLine
  rw [StateT.run_bind, StateT.run_get, pure_bind]
  simp only [inside]
  rfl

/-- The context in which a statement is dispatched: it may have been warned of, and what is passed over
from now on is known. -/
def met (context : Context) (text : String) : Context :=
  { context with
    statement := { context.statement with
      diagnostics :=
        if (Micro.substitute text.toList context.findMicro?).unknown then
          context.statement.diagnostics.insert (.warning .microSubstitution)
        else context.statement.diagnostics }
    skip := (passOver (statementFields context text) context.skip).2 }

theorem run_assembleLine_outside (outside : context.capture = none)
    (plain : Fields.isComment text.toList = false) :
    ((assembleLine text).run context).2 =
      if (passOver (statementFields context text) context.skip).1 then met context text
      else ((dispatch (statementFields context text)).run (met context text)).2 := by
  have opened : (assembleLine text).run context = (do
      let edited := Micro.substitute text.toList context.findMicro?
      if edited.unknown then warn .microSubstitution
      if !(← skipping (statementFields context text)) then dispatch (statementFields context text)
      return if edited.changed then some edited.text else none : AsmM (Option String)).run
        context := by
    rw [run_assembleLine_none outside]
    unfold assembleOutside
    rw [if_neg (Bool.eq_false_iff.mp plain)]
    rfl
  rw [opened]
  unfold met
  generalize statementFields context text = fields
  generalize Micro.substitute text.toList context.findMicro? = edited
  generalize dispatch fields = dispatched
  have passed : ∀ given : Context, given.skip = context.skip →
      ((do if !(← skipping fields) then dispatched
           return if edited.changed then some edited.text else none :
             AsmM (Option String)).run given).2 =
        if (passOver fields context.skip).1 then
          { given with skip := (passOver fields context.skip).2 }
        else (dispatched.run { given with skip := (passOver fields context.skip).2 }).2 := by
    intro given same
    have skipped : (skipping fields).run given = ((passOver fields context.skip).1,
        { given with skip := (passOver fields context.skip).2 }) := by
      rw [← same]
      rfl
    rw [StateT.run_bind, skipped]
    cases (passOver fields context.skip).1 <;> rfl
  by_cases unknown : edited.unknown
  · simp only [if_pos unknown]
    exact passed (context.register (.warning .microSubstitution)) rfl
  · simp only [if_neg unknown]
    exact passed context rfl

theorem duplicated_eq (count : Nat) (body : List String) :
    duplicated count body = (List.replicate count body).flatten := by
  unfold duplicated
  split
  · rename_i empty
    rw [List.isEmpty_iff.mp empty, List.flatten_replicate_nil]
  · rfl

/-- Give a statement to a macro. -/
def call (definition : MacroDefinition) (fields : Fields) : AsmM Unit :=
  match definition.expand fields.location fields.operand with
  | .ok lines => pushFrame .call lines
  | .error kind => error kind

theorem run_dispatch_definition {fields : Fields} {definition : MacroDefinition} (named : fields.result ≠ "")
    (found : context.findMacro? ((context.findSynonym? fields.result).getD fields.result) =
      some definition) :
    (dispatch fields).run context = (call definition fields).run context := by
  have filled : ¬ fields.result.isEmpty := by simpa using named
  unfold dispatch
  rw [if_neg filled, StateT.run_bind, StateT.run_get, pure_bind]
  unfold dispatchNamed call
  rw [StateT.run_bind, StateT.run_get, pure_bind]
  cases expanded : definition.expand fields.location fields.operand with
  | ok lines => simp only [found, expanded]
  | error kind => simp only [found, expanded]

theorem run_dispatch_call {fields : Fields} {definition : MacroDefinition} (named : fields.result ≠ "")
    (found : context.findMacro? ((context.findSynonym? fields.result).getD fields.result) =
      some definition)
    (expanded : definition.expand fields.location fields.operand = .ok lines) :
    (dispatch fields).run context = (pushFrame .call lines).run context := by
  rw [run_dispatch_definition named found, call, expanded]

theorem run_dispatch_directive {fields : Fields} {directive : Directive} (named : fields.result ≠ "")
    (undefined : context.findMacro? ((context.findSynonym? fields.result).getD fields.result) = none)
    (known : Directive.ofName? ((context.findSynonym? fields.result).getD fields.result) =
      some directive) :
    (dispatch fields).run context = (directive.run { fields with
      result := (context.findSynonym? fields.result).getD fields.result }).run context := by
  have filled : ¬ fields.result.isEmpty := by simpa using named
  unfold dispatch
  rw [if_neg filled, StateT.run_bind, StateT.run_get, pure_bind]
  unfold dispatchNamed
  rw [StateT.run_bind, StateT.run_get, pure_bind]
  simp only [undefined, known]

theorem run_dispatch_instruction {fields : Fields} (named : fields.result ≠ "")
    (undefined : context.findMacro? ((context.findSynonym? fields.result).getD fields.result) = none)
    (unknown : Directive.ofName? ((context.findSynonym? fields.result).getD fields.result) = none) :
    (dispatch fields).run context = (machineInstruction { fields with
      result := (context.findSynonym? fields.result).getD fields.result }).run context := by
  have filled : ¬ fields.result.isEmpty := by simpa using named
  unfold dispatch
  rw [if_neg filled, StateT.run_bind, StateT.run_get, pure_bind]
  unfold dispatchNamed
  rw [StateT.run_bind, StateT.run_get, pure_bind]
  simp only [undefined, unknown]

theorem run_captureLine_counted {name : String} {count statements : Nat} {body : List String}
    (complete : statements ≤ (body ++ [text]).countP fun line => !Fields.isComment line.toList) :
    ((captureLine (.group name count (some statements) body) text).run context).2.statement =
      ((pushFrame .group (duplicated count (body ++ [text]))).run context).2.statement := by
  unfold captureLine captureInto
  dsimp only
  rw [if_pos complete]
  generalize pushFrame .group _ = pushed
  rfl

theorem run_captureLine_closed {name : String} {count : Nat} {body : List String}
    (ends : endsCapture text name "ENDDUP" = true) :
    ((captureLine (.group name count none body) text).run context).2.statement =
      ((pushFrame .group (duplicated count body)).run context).2.statement := by
  unfold captureLine captureInto
  dsimp only
  rw [if_pos ends]
  generalize pushFrame .group _ = pushed
  rfl

/-- A line that stands for others gives them as a frame, unless there are none. -/
theorem Expands.assembleLine (expands : Expands context text kind lines) :
    ((Asm.assembleLine text).run context).2.statement.frameChange =
      if lines.isEmpty then context.statement.frameChange
      else .push ⟨kind, context.statement.line, lines⟩ := by
  cases expands with
  | @call definition lines outside plain assembled named found expanded =>
    have called : (met context text).findMacro?
        (((met context text).findSynonym? (statementFields context text).result).getD
          (statementFields context text).result) = some definition := found
    rw [run_assembleLine_outside outside plain, if_neg (Bool.eq_false_iff.mp assembled),
      run_dispatch_call named called expanded, run_pushFrame]
    rfl
  | counted inside complete =>
    rw [run_assembleLine_some inside, run_captureLine_counted complete, run_pushFrame, duplicated_eq]
  | closed inside ends =>
    rw [run_assembleLine_some inside, run_captureLine_closed ends, run_pushFrame, duplicated_eq]

theorem statementFields_withStatement (context : Context) (text : String)
    (statement : StatementState) :
    statementFields { context with statement } text = statementFields context text := by
  have micros : Context.findMicro? { context with statement } = context.findMicro? := rfl
  unfold statementFields fieldsOf
  rw [micros]

/-- What stands for other lines does so whatever is known of the statement. -/
theorem Expands.withStatement (expands : Expands context text kind lines)
    (statement : StatementState) : Expands { context with statement } text kind lines := by
  have fields := statementFields_withStatement context text statement
  cases expands with
  | call outside plain assembled named found expanded =>
    rw [← fields] at assembled named found expanded
    exact .call outside plain assembled named found expanded
  | counted inside complete => exact .counted inside complete
  | closed inside ends => exact .closed inside ends

theorem Expands.change (expands : Expands context text kind lines) (number : LineNumber)
    (origin : Option FrameKind) (truncated : Bool) :
    ((assembleStatement number text origin truncated true).run context).1 =
      if lines.isEmpty then .keep else .push ⟨kind, number, lines⟩ := by
  rw [assembleStatement_change]
  cases truncated with
  | false => exact (expands.withStatement { line := number }).assembleLine
  | true => exact (expands.withStatement
      { line := number, diagnostics := (DiagnosticSet.empty).insert (.warning .truncation) }).assembleLine

/-- A macro call or a duplicated group means the same as its lines written out: it is finished
without its frame, and then each line is assembled under its number with all that the line gives in
turn. -/
theorem expansion_writtenOut (expands : Expands context text kind lines)
    (undisturbed : Undisturbed (frameDepth - 1) ⟨kind, number, lines⟩
      ((assembleStatement number text origin truncated true).run context).2) :
    (do let change ← assembleStatement number text origin truncated true
        Frame.runAfter assembleFrameLine change : AsmM Unit).run context =
      (do discard (assembleStatement number text origin truncated true)
          lines.forM fun line => do
            let change ← assembleStatement number line (some kind) false true
            Frame.runAfter assembleFrameLine change : AsmM Unit).run context := by
  obtain ⟨after, ran⟩ := undisturbed.run
  have change := expands.change number origin truncated
  rcases finished : (assembleStatement number text origin truncated true).run context with
    ⟨given, later⟩
  rw [finished] at ran change
  have framed : (Frame.runAfter assembleFrameLine given).run later = ((), after) := by
    have own := ran (frameDepth - 1) (Nat.le_refl _)
    cases lines with
    | nil =>
      obtain rfl : given = .keep := change
      cases own
      rfl
    | cons line rest =>
      obtain rfl : given = .push ⟨kind, number, line :: rest⟩ := change
      exact congrArg (fun outcome => ((), outcome.2)) own
  have written : (lines.forM fun line => do
      let change ← assembleStatement number line (some kind) false true
      Frame.runAfter assembleFrameLine change).run later = ((), after) :=
    forM_of_runLines (ran frameDepth (Nat.sub_le ..))
  have passed : (discard (assembleStatement number text origin truncated true)).run context =
      ((), ((assembleStatement number text origin truncated true).run context).2) := rfl
  rw [finished] at passed
  rw [StateT.run_bind, StateT.run_bind, finished, passed]
  exact framed.trans written.symm

/-- A macro whose body is a duplicated group. -/
def nestedLines : List SourceLine :=
  [⟨1, "  MACRO", false⟩, ⟨2, "  TWICE N", false⟩, ⟨3, "  DUP 2,1", false⟩,
    ⟨4, "  CON N", false⟩, ⟨5, "TWICE ENDM", false⟩]

theorem expansion_writtenOut_nested :
    let context := ((nestedLines.forM assembleSourceLine).run (.initial {} ⟨"", "", ""⟩ "MAIN")).2
    (do let change ← assembleStatement 6 "  TWICE 5" none false true
        Frame.runAfter assembleFrameLine change : AsmM Unit).run context =
      (do discard (assembleStatement 6 "  TWICE 5" none false true)
          ["  DUP 2,1", "  CON 5"].forM fun line => do
            let change ← assembleStatement 6 line (some .call) false true
            Frame.runAfter assembleFrameLine change : AsmM Unit).run context := by
  intro context
  have reached : context.capture = none ∧ context.skip = none ∧
      statementFields context "  TWICE 5" = ⟨"", "TWICE", "5", 8⟩ ∧
      context.findMacro? ((context.findSynonym? "TWICE").getD "TWICE") =
        some (.make ⟨"TWICE", none, ["N"], []⟩ ["  DUP 2,1", "  CON N"] .one) ∧
      Undisturbed (frameDepth - 1) ⟨.call, 6, ["  DUP 2,1", "  CON 5"]⟩
        ((assembleStatement 6 "  TWICE 5" none false true).run context).2 := by
    decide +kernel
  obtain ⟨outside, skip, fields, found, undisturbed⟩ := reached
  have expands : Expands context "  TWICE 5" .call ["  DUP 2,1", "  CON 5"] := by
    have named : (statementFields context "  TWICE 5").result = "TWICE" := by rw [fields]
    rw [← named] at found
    refine .call outside (by decide) ?_ ?_ found ?_
    · rw [skip]
      rfl
    · rw [named]
      decide
    · rw [fields]
      rfl
  exact expansion_writtenOut expands undisturbed

end Expansion

end Asm

end CrayAssembler
