import CrayAssembler.Proofs.Assembly.Expansion
import Mathlib.Data.DFinsupp.WellFounded

namespace CrayAssembler

/-- The frames in progress, each with the lines that it has left, the innermost first. -/
abbrev FrameStack := BoundedStack Frame frameDepth

namespace FrameStack

/-- The next line of some frames, as `FrameStack.next?` has it. -/
def nextOf : (frames : List Frame) → frames.length ≤ frameDepth →
    Option (Frame × String × FrameStack)
  | [], _ => none
  | ⟨kind, origin, lines⟩ :: outer, bounded =>
    match lines with
    | [] => nextOf outer (Nat.le_of_succ_le bounded)
    | text :: rest => some (⟨kind, origin, lines⟩, text, ⟨⟨kind, origin, rest⟩ :: outer, bounded⟩)

/-- The next line with its frame, and the frames after it is taken. Frames that have no line left
are passed over; the frame of the line stays, also when that was its last. -/
def next? (stack : FrameStack) : Option (Frame × String × FrameStack) :=
  nextOf stack.items stack.bounded

/-- The frames after a statement. One that there is no room for is dropped. -/
def after (stack : FrameStack) : FrameChange → FrameStack
  | .keep => stack
  | .clear => .empty
  | .push frame => (stack.push frame).toOption.getD stack

/-- How many lines are left at each depth, the outermost frame first. -/
def linesLeft (stack : FrameStack) (depth : Fin frameDepth) : Nat :=
  (stack.items.reverse[depth.val]?.map (·.lines.length)).getD 0

/-- What goes down with each line that is taken. -/
def measure (stack : FrameStack) : Lex (Fin frameDepth → Nat) :=
  toLex stack.linesLeft

section Descent

variable {stack left : FrameStack} {frame : Frame} {text : String} {inner outer : List Frame}

/-- A line is taken from a frame inside which all others have run out. -/
theorem nextOf_eq_some {frames : List Frame} {bounded : frames.length ≤ frameDepth}
    (taken : nextOf frames bounded = some (frame, text, left)) :
    ∃ spent outer rest, frames = spent ++ frame :: outer ∧ frame.lines = text :: rest ∧
      left.items = ⟨frame.kind, frame.origin, rest⟩ :: outer := by
  induction frames with
  | nil => cases taken
  | cons innermost outer ih =>
    obtain ⟨kind, origin, lines⟩ := innermost
    cases lines with
    | nil =>
      obtain ⟨spent, further, rest, split, line, items⟩ := ih taken
      exact ⟨⟨kind, origin, []⟩ :: spent, further, rest, by rw [split]; rfl, line, items⟩
    | cons first rest =>
      cases taken
      exact ⟨[], outer, rest, rfl, rfl, rfl⟩

/-- The lines left at a depth do not hang on the frames further in. -/
theorem linesLeft_of_append (items : stack.items = inner ++ outer) {depth : Fin frameDepth}
    (within : depth.val < outer.length) :
    stack.linesLeft depth = (outer.reverse[depth.val]?.map (·.lines.length)).getD 0 := by
  have reversed : stack.items.reverse = outer.reverse ++ inner.reverse := by
    rw [items, List.reverse_append]
  unfold linesLeft
  rw [reversed, List.getElem?_append_left (by rwa [List.length_reverse])]

theorem linesLeft_at (items : stack.items = inner ++ frame :: outer) {depth : Fin frameDepth}
    (here : depth.val = outer.length) : stack.linesLeft depth = frame.lines.length := by
  have within : depth.val < (frame :: outer).length := by
    rw [here, List.length_cons]
    exact Nat.lt_succ_self _
  rw [linesLeft_of_append items within, List.reverse_cons, here, ← List.length_reverse,
    List.getElem?_concat_length]
  rfl

/-- Whatever comes to lie inside it, a frame that has lost a line lowers the measure. -/
theorem measure_lt {now : FrameStack} {shorter : Frame} {spent : List Frame}
    (before : stack.items = spent ++ frame :: outer)
    (afterwards : now.items = inner ++ shorter :: outer)
    (fewer : shorter.lines.length < frame.lines.length) : now.measure < stack.measure := by
  have height : outer.length < frameDepth := by
    have bounded := stack.bounded
    rw [before, List.length_append, List.length_cons] at bounded
    omega
  refine ⟨⟨outer.length, height⟩, fun depth further => ?_, ?_⟩
  · have within : depth.val < outer.length := further
    rw [List.append_cons] at before afterwards
    have earlier := linesLeft_of_append before within
    have later := linesLeft_of_append afterwards within
    exact later.trans earlier.symm
  · change now.linesLeft _ < stack.linesLeft _
    rw [linesLeft_at before rfl, linesLeft_at afterwards rfl]
    exact fewer

theorem items_push (stack : FrameStack) (frame : Frame) :
    ∃ inner, (stack.after (.push frame)).items = inner ++ stack.items := by
  by_cases room : stack.items.length < frameDepth
  · have pushed : stack.push frame = .ok ⟨frame :: stack.items, room⟩ := dif_pos room
    exact ⟨[frame], by rw [after, pushed]; rfl⟩
  · have refused : stack.push frame = .error .overflow := dif_neg room
    exact ⟨[], by rw [after, refused]; rfl⟩

/-- Taking a line lowers the measure, whatever its statement does to the frames. -/
theorem measure_after_lt (taken : stack.next? = some (frame, text, left)) (change : FrameChange) :
    (left.after change).measure < stack.measure := by
  obtain ⟨spent, outer, rest, before, line, items⟩ := nextOf_eq_some taken
  have fewer : rest.length < frame.lines.length := by
    rw [line, List.length_cons]
    exact Nat.lt_succ_self _
  cases change with
  | keep => exact measure_lt before (items.trans (List.nil_append _).symm) fewer
  | push frame =>
    obtain ⟨inner, pushed⟩ := items_push left frame
    rw [items] at pushed
    exact measure_lt before pushed fewer
  | clear =>
    have lowered : left.measure < stack.measure :=
      measure_lt before (items.trans (List.nil_append _).symm) fewer
    refine lt_of_le_of_lt (Pi.toLex_monotone fun depth => ?_) lowered
    exact Nat.zero_le _

end Descent

theorem not_isFull (stack : FrameStack) {room : Nat} (height : stack.size + room = frameDepth) :
    (!stack.isFull) = decide (0 < room) := by
  unfold BoundedStack.isFull
  rw [← decide_not]
  exact decide_eq_decide.mpr (by omega)

end FrameStack

namespace Asm

/-- One round of the loop over the frames: a line is taken and assembled. -/
def Round (earlier later : FrameStack × Context) : Prop :=
  ∃ frame text left, earlier.1.next? = some (frame, text, left) ∧
    let outcome := (assembleStatement frame.origin text (some frame.kind) false
      !left.isFull).run earlier.2
    later = (left.after outcome.1, outcome.2)

/-- Take lines until none is left. -/
def runFrames (stack : FrameStack) : AsmM Unit :=
  match _taken : stack.next? with
  | none => return ()
  | some (frame, text, left) => do
    let change ← assembleStatement frame.origin text (some frame.kind) false !left.isFull
    runFrames (left.after change)
termination_by wellFounded_lt.wrap stack.measure
decreasing_by exact FrameStack.measure_after_lt _taken change

theorem round_wellFounded :
    WellFounded fun later earlier : FrameStack × Context => Round earlier later := by
  refine Subrelation.wf ?_ (InvImage.wf (fun state => state.1.measure) wellFounded_lt)
  rintro later earlier ⟨frame, text, left, taken, rfl⟩
  exact FrameStack.measure_after_lt taken _

section Loop

variable {stack left : FrameStack} {frame : Frame} {text : String}

theorem runFrames_of_next? (taken : stack.next? = some (frame, text, left)) :
    runFrames stack = (do
      let change ← assembleStatement frame.origin text (some frame.kind) false !left.isFull
      runFrames (left.after change)) := by
  rw [runFrames]
  split
  · rename_i none
    rw [taken] at none
    cases none
  · rename_i frame text left some
    rw [taken] at some
    cases some
    rfl

theorem runFrames_of_none (ended : stack.next? = none) : runFrames stack = pure () := by
  rw [runFrames]
  split
  · rfl
  · rename_i frame text left some
    rw [ended] at some
    cases some

/-- Only the lines that are still to come count. -/
theorem runFrames_congr {other : FrameStack} (same : stack.next? = other.next?) :
    runFrames stack = runFrames other := by
  cases next : other.next? with
  | none => rw [runFrames_of_none next, runFrames_of_none (same.trans next)]
  | some taken => rw [runFrames_of_next? next, runFrames_of_next? (same.trans next)]

/-- The lines of the innermost frame are run, each with its own frame, and then those of the frames
further out, unless all are dropped. -/
theorem runFrames_lines {room : Nat} {frame : Frame} {outer : List Frame}
    {enter : Frame → AsmM Bool} (height : outer.length + 1 + room = frameDepth)
    (entered : ∀ inner lines bounded,
      runFrames (FrameStack.after ⟨⟨frame.kind, frame.origin, lines⟩ :: outer, bounded⟩
        (.push inner)) = do
        if ← enter inner then return ()
        runFrames ⟨⟨frame.kind, frame.origin, lines⟩ :: outer, bounded⟩)
    (lines : List String) (bounded : outer.length + 1 ≤ frameDepth) :
    runFrames ⟨⟨frame.kind, frame.origin, lines⟩ :: outer, bounded⟩ = (do
      if ← Frame.runLines (assembleFrameLine room frame) enter lines then return ()
      runFrames ⟨outer, Nat.le_of_succ_le bounded⟩) := by
  induction lines with
  | nil => exact runFrames_congr rfl
  | cons text rest ih =>
    have full :=
      FrameStack.not_isFull ⟨⟨frame.kind, frame.origin, rest⟩ :: outer, bounded⟩ height
    rw [runFrames_of_next? rfl, full, Frame.runLines, bind_assoc]
    refine bind_congr fun change => ?_
    cases change with
    | keep => exact ih
    | clear =>
      rw [pure_bind]
      exact runFrames_of_none rfl
    | push inner =>
      rw [entered inner rest bounded, bind_assoc]
      refine bind_congr fun dropped => ?_
      cases dropped with
      | true => rfl
      | false => exact ih

theorem runFrames_cons {room : Nat} {frame : Frame} {outer : List Frame}
    (height : outer.length + 1 + room = frameDepth) (bounded : outer.length + 1 ≤ frameDepth) :
    runFrames ⟨frame :: outer, bounded⟩ = (do
      if ← Frame.run assembleFrameLine room frame then return ()
      runFrames ⟨outer, Nat.le_of_succ_le bounded⟩) := by
  induction room generalizing frame outer with
  | zero =>
    refine runFrames_lines height (fun inner lines bounded => ?_) frame.lines bounded
    have refused : (⟨⟨frame.kind, frame.origin, lines⟩ :: outer, bounded⟩ : FrameStack).push inner =
        .error .overflow := dif_neg (by rw [List.length_cons]; omega)
    rw [FrameStack.after, refused]
    rfl
  | succ room ih =>
    refine runFrames_lines height (fun inner lines bounded => ?_) frame.lines bounded
    have space : outer.length + 1 < frameDepth := by omega
    have pushed : (⟨⟨frame.kind, frame.origin, lines⟩ :: outer, bounded⟩ : FrameStack).push inner =
        .ok ⟨inner :: ⟨frame.kind, frame.origin, lines⟩ :: outer, space⟩ := dif_pos space
    rw [FrameStack.after, pushed]
    have deeper : (Frame.mk frame.kind frame.origin lines :: outer).length + 1 + room =
        frameDepth := by
      rw [List.length_cons]
      omega
    exact ih deeper space

/-- The loop does what a line of the source has done to its frames. -/
theorem runFrames_after (change : FrameChange) :
    runFrames (FrameStack.after .empty change) = Frame.runAfter assembleFrameLine change := by
  cases change with
  | keep => exact runFrames_of_none rfl
  | clear => exact runFrames_of_none rfl
  | push frame =>
    have height : ([] : List Frame).length + 1 + (frameDepth - 1) = frameDepth := rfl
    have ran : runFrames ⟨[frame], _⟩ = _ := runFrames_cons height (by decide)
    have ended : runFrames ⟨[], Nat.zero_le _⟩ = pure () := runFrames_of_none rfl
    rw [ended] at ran
    refine ran.trans ?_
    change (Frame.run assembleFrameLine (frameDepth - 1) frame >>= fun dropped =>
      if dropped then pure () else pure ()) = _
    simp only [ite_self]
    rfl

end Loop

section Refusal

variable {context : Context} {number : LineNumber} {text : String} {origin : Option FrameKind}
  {truncated mayNest : Bool} {inner : Frame}

/-- A statement when all is done but to finish it. -/
def unfinished (number : LineNumber) (text : String) (truncated mayNest : Bool)
    (context : Context) : Context :=
  let body := ((assembleBody number text truncated).run context).2
  if mayNest then body else (refuseFrame.run body).2

theorem contains_insert (set : DiagnosticSet) {d : Diagnostic} (listed : d ∈ Diagnostic.all) :
    (set.insert d).contains d = true := by
  simp [DiagnosticSet.insert, DiagnosticSet.contains, listed]

theorem run_refuseFrame_push (given : context.statement.frameChange = .push inner) :
    (refuseFrame.run context).2 = (context.register (.error .illegalNesting)).modifyStatement
      fun statement => { statement with frameChange := .keep } := by
  simp only [refuseFrame, StateT.run_bind, StateT.run_get, pure_bind, given]
  rfl

/-- A statement with a fault is reported, and the fault with it. -/
theorem reports_record (text : String) (origin : Option FrameKind) {statement : StatementState}
    {d : Diagnostic} (drawn : statement.diagnostics.contains d = true) (fault : d ≠ .moduleEnd)
    (edited : Option String) (context : Context) :
    ∃ faults, ((record statement text edited origin).run context).2.reports =
      context.reports.push ⟨statement.line, text, faults⟩ ∧ d ∈ faults := by
  have member : d ∈ statement.diagnostics.toList.filter (· ≠ .moduleEnd) := by
    refine List.mem_filter.mpr ⟨List.contains_iff_mem.mp drawn, decide_eq_true fault⟩
  refine ⟨_, ?_, member⟩
  have faulty : (!(statement.diagnostics.toList.filter (· ≠ .moduleEnd)).isEmpty) = true := by
    rw [Bool.not_eq_true', List.isEmpty_eq_false_iff]
    exact List.ne_nil_of_mem member
  unfold record
  simp only [StateT.run_bind, StateT.run_get, StateT.run_modify, pure_bind, if_pos faulty]
  split <;> rfl

/-- A statement is recorded in pass 2; what is current may have been reset before. -/
theorem finishStatement_cases (text : String) (edited : Option String) (origin : Option FrameKind)
    (context : Context) :
    ∃ given : Context, given.pass = context.pass ∧ given.reports = context.reports ∧
      ((finishStatement text edited origin).run context).2 =
        if context.pass = .two then ((record context.statement text edited origin).run given).2
        else given := by
  let cleared : Context := { context with statement := {} }
  have recorded : ∀ given : Context, given.pass = context.pass →
      ((do if (← get).pass = .two then record context.statement text edited origin
           return context.statement.frameChange : AsmM FrameChange).run given).2 =
        if context.pass = .two then ((record context.statement text edited origin).run given).2
        else given := by
    intro given same
    rw [StateT.run_bind, StateT.run_get, pure_bind, same]
    split <;> rfl
  by_cases ends : context.statement.diagnostics.contains .moduleEnd
  · refine ⟨{ cleared.resetModuleState with moduleIndex := Context.anonymousModule }, rfl, rfl, ?_⟩
    refine Eq.trans ?_ (recorded _ rfl)
    rw [finishStatement, StateT.run_bind, StateT.run_get, pure_bind, StateT.run_bind,
      StateT.run_modify, pure_bind, if_pos ends]
    rfl
  · refine ⟨cleared, rfl, rfl, ?_⟩
    refine Eq.trans ?_ (recorded _ rfl)
    rw [finishStatement, StateT.run_bind, StateT.run_get, pure_bind, StateT.run_bind,
      StateT.run_modify, pure_bind, if_neg ends]

/-- A frame that there is no room for is dropped, and its statement draws an error, which is
reported in pass 2. -/
theorem assembleStatement_refused
    (given : ((assembleStatement number text origin truncated true).run context).1 = .push inner) :
    let refused := (assembleStatement number text origin truncated false).run context
    refused.1 = .keep ∧
      (unfinished number text truncated false context).statement.diagnostics.contains
        (.error .illegalNesting) = true ∧
      (refused.2.pass = .two → ∃ report, refused.2.reports.back? = some report ∧
        report.text = text ∧ .error .illegalNesting ∈ report.diagnostics) := by
  rw [assembleStatement_change] at given
  intro refused
  have ended : refused = (finishStatement text
      ((assembleBody number text truncated).run context).1 origin).run
        (unfinished number text truncated false context) := run_assembleStatement ..
  have state : unfinished number text truncated false context = _ := run_refuseFrame_push given
  have drawn : (unfinished number text truncated false context).statement.diagnostics.contains
      (.error .illegalNesting) = true := by
    rw [state]
    exact contains_insert _ (by decide)
  refine ⟨?_, drawn, fun two => ?_⟩
  · rw [ended, finishStatement_change, state]
    rfl
  · obtain ⟨before, pass, reports, finished⟩ := finishStatement_cases text
      ((assembleBody number text truncated).run context).1 origin
      (unfinished number text truncated false context)
    rw [← ended] at finished
    obtain ⟨faults, reported, member⟩ := reports_record text origin drawn
      (by decide) ((assembleBody number text truncated).run context).1 before
    by_cases late : (unfinished number text truncated false context).pass = .two
    · rw [if_pos late] at finished
      rw [finished, reported]
      exact ⟨_, Array.back?_push, rfl, member⟩
    · rw [if_neg late] at finished
      rw [finished, pass] at two
      exact absurd two late

end Refusal

/-- Rounds lead to where the loop ends. -/
theorem rounds_runFrames (start : FrameStack × Context) :
    ∃ last : FrameStack, last.next? = none ∧
      Relation.ReflTransGen Round start (last, ((runFrames start.1).run start.2).2) := by
  induction start using round_wellFounded.induction with
  | _ start ih =>
    obtain ⟨stack, context⟩ := start
    cases taken : stack.next? with
    | none =>
      rw [runFrames_of_none taken]
      exact ⟨stack, taken, .refl⟩
    | some next =>
      obtain ⟨frame, text, left⟩ := next
      have round : Round (stack, context) _ := ⟨frame, text, left, taken, rfl⟩
      obtain ⟨last, ended, rounds⟩ := ih _ round
      rw [runFrames_of_next? taken]
      exact ⟨last, ended, .head round rounds⟩

/-- Expansion comes to an end. From no frames and no context do rounds go on without end; those that
follow a line of the source lead to where the line leaves the context; and a frame that a statement
gives while the stack is full is dropped with an error. -/
theorem expansion_ends :
    (WellFounded fun later earlier : FrameStack × Context => Round earlier later) ∧
    (∀ (line : SourceLine) (context : Context),
      let first := (assembleStatement line.number line.text none line.truncated true).run context
      ∃ last : FrameStack, last.next? = none ∧
        Relation.ReflTransGen Round (FrameStack.after .empty first.1, first.2)
          (last, ((assembleSourceLine line).run context).2)) ∧
    ∀ (stack left : FrameStack) (frame inner : Frame) (text : String) (context : Context),
      stack.next? = some (frame, text, left) → left.isFull = true →
      ((assembleStatement frame.origin text (some frame.kind) false true).run context).1 =
        .push inner →
      let after := ((assembleStatement frame.origin text (some frame.kind) false false).run context).2
      Round (stack, context) (left, after) ∧
        (unfinished frame.origin text false false context).statement.diagnostics.contains
          (.error .illegalNesting) = true ∧
        (after.pass = .two → ∃ report, after.reports.back? = some report ∧ report.text = text ∧
          .error .illegalNesting ∈ report.diagnostics) := by
  refine ⟨round_wellFounded, fun line context => ?_, fun stack left frame inner text context => ?_⟩
  · intro first
    have ran : ((assembleSourceLine line).run context).2 =
        ((runFrames (FrameStack.after .empty first.1)).run first.2).2 := by
      rw [runFrames_after]
      rfl
    rw [ran]
    exact rounds_runFrames (FrameStack.after .empty first.1, first.2)
  · intro taken full given
    obtain ⟨kept, drawn, reported⟩ := assembleStatement_refused given
    refine ⟨⟨frame, text, left, taken, ?_⟩, drawn, reported⟩
    rw [full]
    exact Prod.ext (congrArg left.after kept).symm rfl

/-- A macro that calls itself. -/
def recursiveLines : List SourceLine :=
  [⟨1, "  MACRO", false⟩, ⟨2, "  AGAIN", false⟩, ⟨3, "  AGAIN", false⟩, ⟨4, "AGAIN ENDM", false⟩]

/-- As many frames as there can be, the innermost with one line left. -/
def deepStack : FrameStack :=
  ⟨⟨.call, 5, ["  AGAIN"]⟩ :: List.replicate 63 ⟨.call, 5, []⟩, by decide⟩

theorem expansion_ends_recursive :
    let context := ((recursiveLines.forM assembleSourceLine).run
      ((Context.initial {} ⟨"", "", ""⟩ "MAIN").startPass .two)).2
    let after := ((assembleStatement 5 "  AGAIN" (some .call) false false).run context).2
    Round (deepStack, context) (⟨List.replicate 64 ⟨.call, 5, []⟩, by decide⟩, after) ∧
      ∃ report, after.reports.back? = some report ∧ report.text = "  AGAIN" ∧
        .error .illegalNesting ∈ report.diagnostics := by
  intro context after
  obtain ⟨given, two⟩ : ((assembleStatement 5 "  AGAIN" (some .call) false true).run context).1 =
      .push ⟨.call, 5, ["  AGAIN"]⟩ ∧ after.pass = .two := by decide +kernel
  clear_value context
  have ended := expansion_ends.2.2 deepStack ⟨List.replicate 64 ⟨.call, 5, []⟩, by decide⟩
    ⟨.call, 5, ["  AGAIN"]⟩ ⟨.call, 5, ["  AGAIN"]⟩ "  AGAIN" context rfl (by decide) given
  exact ⟨ended.1, ended.2.2 two⟩

end Asm

end CrayAssembler
