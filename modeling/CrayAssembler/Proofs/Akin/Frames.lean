import CrayAssembler.Proofs.Akin.Statements

namespace CrayAssembler

namespace FrameChange

/-- The lines that a statement gives. -/
def lines : FrameChange → List String
  | .push frame => frame.lines
  | .keep | .clear => []

theorem lines_plain (change : FrameChange) : change.plain.lines = plainLines change.lines := by
  cases change with
  | keep => rfl
  | clear => rfl
  | push frame =>
    unfold plain
    dsimp only
    split
    case isTrue comments => exact comments.symm
    case isFalse => rfl

theorem plain_push_ne_clear (frame : Frame) : (push frame).plain ≠ .clear := by
  unfold plain
  dsimp only
  split <;> nofun

end FrameChange

namespace Frame

variable {m : Type → Type} [Monad m]

/-- Run what a line has given. -/
def follow (enter : Frame → m Bool) : FrameChange → m Bool
  | .keep => return false
  | .clear => return true
  | .push frame => enter frame

variable [LawfulMonad m]

theorem runLines_cons (assemble : String → m FrameChange) (enter : Frame → m Bool) (line : String)
    (rest : List String) :
    runLines assemble enter (line :: rest) = (do
      let change ← assemble line
      if ← follow enter change then return true
      runLines assemble enter rest) := by
  rw [runLines]
  refine bind_congr fun change => ?_
  cases change <;> simp [follow]

theorem runAfter_eq (assemble : Nat → Frame → String → m FrameChange) (change : FrameChange) :
    runAfter assemble change = (do
      let _ ← follow (run assemble (frameDepth - 1)) change
      return ()) := by
  cases change with
  | keep => simp [runAfter, follow]
  | clear => simp [runAfter, follow]
  | push frame =>
    rw [bind_pure_comp]
    exact congrFun (congrFun LawfulFunctor.map_const ()) (run assemble (frameDepth - 1) frame)

end Frame

namespace Asm

section Containing

/-- Assemble a line of a frame and stop where there is no room for the frame that it gives. -/
def contain (room : Nat) (frame : Frame) (text : String) : ExceptT Disturbance AsmM FrameChange := do
  match ← assembleStatement frame.origin text (some frame.kind) false true, room with
  | .push _, 0 => throw .overflow
  | change, _ => return change

/-- Where a run is not stopped, it does what the other one does. -/
def Mirrors {α : Type} (watched : ExceptT Disturbance AsmM α) (free : AsmM α) : Prop :=
  ∀ context value after, watched.run.run context = (.ok value, after) →
    free.run context = (value, after)

variable {α β : Type}

theorem Mirrors.pure (value : α) : Mirrors (pure value) (pure value) := by
  rintro context _ _ ⟨⟩
  rfl

theorem Mirrors.lift (action : AsmM α) : Mirrors (liftM action) action :=
  fun _ _ _ watched => watched_lift watched

theorem Mirrors.bind {watched : ExceptT Disturbance AsmM α} {free : AsmM α}
    {next : α → ExceptT Disturbance AsmM β} {following : α → AsmM β} (first : Mirrors watched free)
    (second : ∀ value, Mirrors (next value) (following value)) :
    Mirrors (watched >>= next) (free >>= following) := by
  intro context value after ran
  obtain ⟨between, middle, begun, ended⟩ := watched_bind ran
  rw [StateT.run_bind, first _ _ _ begun]
  exact second _ _ _ _ ended

theorem Mirrors.forM {items : List α} {watched : α → ExceptT Disturbance AsmM PUnit}
    {free : α → AsmM PUnit} (each : ∀ item, Mirrors (watched item) (free item)) :
    Mirrors (items.forM watched) (items.forM free) := by
  induction items with
  | nil => exact .pure _
  | cons item items ih => exact (each item).bind fun _ => ih

theorem mirrors_contain (room : Nat) (frame : Frame) (text : String) :
    Mirrors (contain room frame text) (assembleFrameLine room frame text) := by
  intro context change after ran
  obtain ⟨given, middle, assembled, decided⟩ := watched_bind ran
  have taken := watched_lift assembled
  cases room with
  | zero =>
    cases given with
    | keep =>
      cases decided
      exact assembleStatement_mayNest taken (fun _ => nofun) _
    | clear =>
      cases decided
      exact assembleStatement_mayNest taken (fun _ => nofun) _
    | push inner => cases decided
  | succ room =>
    cases given <;> cases decided <;> exact taken

theorem mirrors_runLines {assemble : String → ExceptT Disturbance AsmM FrameChange}
    {enter : Frame → ExceptT Disturbance AsmM Bool} {free : String → AsmM FrameChange}
    {enterFree : Frame → AsmM Bool} (each : ∀ line, Mirrors (assemble line) (free line))
    (nested : ∀ frame, Mirrors (enter frame) (enterFree frame)) (lines : List String) :
    Mirrors (Frame.runLines assemble enter lines) (Frame.runLines free enterFree lines) := by
  induction lines with
  | nil => exact .pure _
  | cons line lines ih =>
    refine (each line).bind fun change => ?_
    cases change with
    | keep => exact ih
    | clear => exact .pure _
    | push frame =>
      refine (nested frame).bind fun dropped => ?_
      cases dropped with
      | true => exact .pure _
      | false => exact ih

theorem mirrors_run (room : Nat) (frame : Frame) :
    Mirrors (Frame.run contain room frame) (Frame.run assembleFrameLine room frame) := by
  induction room generalizing frame with
  | zero => exact mirrors_runLines (mirrors_contain 0 frame) (fun _ => .pure _) frame.lines
  | succ room ih => exact mirrors_runLines (mirrors_contain (room + 1) frame) ih frame.lines

end Containing

section Parallel

/-- Where neither of two runs is stopped, they come to related results and to related contexts. -/
def Parallel {α β : Type} (M : Context → Context → Prop) (first : ExceptT Disturbance AsmM α)
    (other : ExceptT Disturbance AsmM β) (R : α → β → Prop) : Prop :=
  ∀ here there value after value' after', M here there →
    first.run.run here = (.ok value, after) → other.run.run there = (.ok value', after') →
    R value value' ∧ M after after'

variable {α β γ δ : Type} {M : Context → Context → Prop} {R : α → β → Prop} {S : γ → δ → Prop}

theorem Parallel.pure {value : α} {other : β} (related : R value other) :
    Parallel M (pure value) (pure other) R := by
  rintro here there _ _ _ _ both ⟨⟩ ⟨⟩
  exact ⟨related, both⟩

theorem Parallel.lift {first : AsmM α} {other : AsmM β}
    (both : ∀ here there, M here there →
      R (first.run here).1 (other.run there).1 ∧ M (first.run here).2 (other.run there).2) :
    Parallel M (liftM first) (liftM other) R := by
  intro here there value after value' after' related ran ran'
  have outcome := both here there related
  rw [watched_lift ran, watched_lift ran'] at outcome
  exact outcome

theorem Parallel.bind {first : ExceptT Disturbance AsmM α} {other : ExceptT Disturbance AsmM β}
    {next : α → ExceptT Disturbance AsmM γ} {following : β → ExceptT Disturbance AsmM δ}
    (begun : Parallel M first other R)
    (rest : ∀ value value', R value value' → Parallel M (next value) (following value') S) :
    Parallel M (first >>= next) (other >>= following) S := by
  intro here there value after value' after' related ran ran'
  obtain ⟨between, middle, ran, ended⟩ := watched_bind ran
  obtain ⟨between', middle', ran', ended'⟩ := watched_bind ran'
  obtain ⟨alike, later⟩ := begun _ _ _ _ _ _ related ran ran'
  exact rest _ _ alike _ _ _ _ _ _ later ended ended'

theorem Parallel.stopped {other : ExceptT Disturbance AsmM β} (reason : Disturbance) :
    Parallel M (throw reason) other R := by
  rintro here there _ _ _ _ both ⟨⟩

theorem Parallel.stopped' {first : ExceptT Disturbance AsmM α} (reason : Disturbance) :
    Parallel M first (throw reason) R := by
  rintro here there _ _ _ _ both - ⟨⟩

/-- What is done in the first run only leads to a related context, with a known result. -/
theorem Parallel.left {first : ExceptT Disturbance AsmM α} (known : α)
    {next : α → ExceptT Disturbance AsmM γ} {following : ExceptT Disturbance AsmM δ}
    (alone : ∀ here there, M here there →
      ∃ after, first.run.run here = (.ok known, after) ∧ M after there)
    (rest : Parallel M (next known) following S) : Parallel M (first >>= next) following S := by
  intro here there value after value' after' related ran ran'
  obtain ⟨between, middle, ran, ended⟩ := watched_bind ran
  obtain ⟨_, begun, later⟩ := alone here there related
  cases begun.symm.trans ran
  exact rest _ _ _ _ _ _ later ended ran'

theorem Parallel.right {other : ExceptT Disturbance AsmM β} (known : β)
    {next : ExceptT Disturbance AsmM γ} {following : β → ExceptT Disturbance AsmM δ}
    (alone : ∀ here there, M here there →
      ∃ after, other.run.run there = (.ok known, after) ∧ M here after)
    (rest : Parallel M next (following known) S) : Parallel M next (other >>= following) S := by
  intro here there value after value' after' related ran ran'
  obtain ⟨between, middle, ran', ended⟩ := watched_bind ran'
  obtain ⟨_, begun, later⟩ := alone here there related
  cases begun.symm.trans ran'
  exact rest _ _ _ _ _ _ later ran ended

end Parallel

section Frames

variable {view : Tally → Tally}

/-- Lists of lines that differ by comments. -/
inductive Padded : List String → List String → Prop
  | nil : Padded [] []
  | same (line : String) {lines others : List String} :
      Padded lines others → Padded (line :: lines) (line :: others)
  | left {line : String} {lines others : List String} :
      Fields.isComment line.toList → Padded lines others → Padded (line :: lines) others
  | right {line : String} {lines others : List String} :
      Fields.isComment line.toList → Padded lines others → Padded lines (line :: others)

theorem padded_of_plain {lines others : List String} (same : plainLines lines = plainLines others) :
    Padded lines others := by
  induction lines generalizing others with
  | nil =>
    induction others with
    | nil => exact .nil
    | cons other others ih =>
      have comments := plainLines_eq_nil.mp same.symm
      exact .right (comments other List.mem_cons_self)
        (ih (plainLines_eq_nil.mpr fun line member => comments line (.tail _ member)).symm)
  | cons line lines ih =>
    by_cases comment : Fields.isComment line.toList
    · rw [plainLines_comment comment] at same
      exact .left comment (ih same)
    · rw [plainLines_solid comment] at same
      induction others with
      | nil => nomatch same
      | cons other others inner =>
        by_cases comment' : Fields.isComment other.toList
        · rw [plainLines_comment comment'] at same
          exact .right comment' (inner same)
        · rw [plainLines_solid comment'] at same
          injection same with head tail
          subst head
          exact .same line (ih tail)

theorem parallel_contain (counts : Counts view) (room : Nat) (frame other : Frame) (text : String) :
    Parallel (Rests view) (contain room frame text) (contain room other text)
      fun change change' => change.plain = change'.plain := by
  have assembled : Parallel (Rests view)
      (liftM (assembleStatement frame.origin text (some frame.kind) false true))
      (liftM (assembleStatement other.origin text (some other.kind) false true))
      fun change change' => change.plain = change'.plain :=
    .lift fun here there rests => rests_assembleStatement counts rests _ _ text _ _ false
  refine assembled.bind fun change change' same => ?_
  split
  · exact .stopped _
  · split
    · exact .stopped' _
    · exact .pure same

/-- A comment in a frame. -/
theorem contain_comment (counts : Counts view) (room : Nat) (frame : Frame) {text : String}
    (comment : Fields.isComment text.toList) {context : Context}
    (pending : ∀ capture ∈ context.capture, capture.Pending) :
    ∃ after, (contain room frame text).run.run context = (.ok .keep, after) ∧
      Rests view context after := by
  obtain ⟨after, assembled, rests⟩ :=
    assembleStatement_comment counts pending frame.origin comment (some frame.kind)
  refine ⟨after, ?_, rests⟩
  unfold contain
  rw [ExceptT.run_bind, StateT.run_bind, run_lift, assembled]
  rfl

theorem parallel_runLines (counts : Counts view) (room : Nat) (frame other : Frame)
    {enter enter' : Frame → ExceptT Disturbance AsmM Bool}
    (nested : ∀ change change' : FrameChange, change.plain = change'.plain →
      Parallel (Rests view) (Frame.follow enter change) (Frame.follow enter' change') (· = ·))
    {lines others : List String} (padded : Padded lines others) :
    Parallel (Rests view) (Frame.runLines (contain room frame) enter lines)
      (Frame.runLines (contain room other) enter' others) (· = ·) := by
  induction padded with
  | nil => exact .pure rfl
  | same line padded ih =>
    rw [Frame.runLines_cons, Frame.runLines_cons]
    refine (parallel_contain counts room frame other line).bind fun change change' same => ?_
    refine (nested change change' same).bind fun dropped dropped' same => ?_
    subst same
    cases dropped with
    | true => exact .pure rfl
    | false => exact ih
  | left comment padded ih =>
    rw [Frame.runLines]
    refine .left FrameChange.keep (fun here there rests => ?_) ih
    obtain ⟨after, ran, quiet⟩ := contain_comment counts room frame comment rests.pending
    exact ⟨after, ran, quiet.symm.trans rests⟩
  | right comment padded ih =>
    rw [Frame.runLines]
    refine .right FrameChange.keep (fun here there rests => ?_) ih
    obtain ⟨after, ran, quiet⟩ := contain_comment counts room other comment rests.symm.pending
    exact ⟨after, ran, rests.trans quiet⟩

/-- Running what a line has given depends on comments no more than running a frame does. A frame
without lines is none. -/
theorem parallel_follow {enter : Frame → ExceptT Disturbance AsmM Bool}
    (nested : ∀ frame other : Frame, plainLines frame.lines = plainLines other.lines →
      Parallel (Rests view) (enter frame) (enter other) (· = ·))
    (empty : ∀ frame : Frame, frame.lines = [] → enter frame = pure false)
    {change change' : FrameChange} (same : change.plain = change'.plain) :
    Parallel (Rests view) (Frame.follow enter change) (Frame.follow enter change') (· = ·) := by
  have lines := congrArg FrameChange.lines same
  rw [FrameChange.lines_plain, FrameChange.lines_plain] at lines
  cases change with
  | keep =>
    cases change' with
    | keep => exact .pure rfl
    | clear => nomatch same
    | push other =>
      -- A frame of comments alone meets none at all, which runs as a frame without lines does.
      have parallel := nested { other with lines := [] } other lines
      rwa [empty { other with lines := [] } rfl] at parallel
  | clear =>
    cases change' with
    | keep => nomatch same
    | clear => exact .pure rfl
    | push other => exact absurd same.symm (FrameChange.plain_push_ne_clear other)
  | push frame =>
    cases change' with
    | keep =>
      have parallel := nested frame { frame with lines := [] } lines
      rwa [empty { frame with lines := [] } rfl] at parallel
    | clear => exact absurd same (FrameChange.plain_push_ne_clear frame)
    | push other => exact nested frame other lines

theorem run_contain_nil (room : Nat) (frame : Frame) (empty : frame.lines = []) :
    Frame.run contain room frame = pure false := by
  cases room <;> rw [Frame.run, empty] <;> rfl

/-- Frames that differ by comments. -/
theorem parallel_run (counts : Counts view) (room : Nat) {frame other : Frame}
    (same : plainLines frame.lines = plainLines other.lines) :
    Parallel (Rests view) (Frame.run contain room frame) (Frame.run contain room other) (· = ·) := by
  induction room generalizing frame other with
  | zero =>
    refine parallel_runLines counts 0 frame other (fun _ _ => ?_) (padded_of_plain same)
    exact parallel_follow (fun _ _ _ => .pure rfl) fun _ _ => rfl
  | succ room ih =>
    refine parallel_runLines counts (room + 1) frame other (fun _ _ => ?_) (padded_of_plain same)
    exact parallel_follow (fun _ _ => ih) (run_contain_nil room)

end Frames

end Asm

end CrayAssembler
