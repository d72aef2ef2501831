import CrayAssembler.Proofs.Assembly.Deed

namespace CrayAssembler

namespace Context

/-- The literals of the current module are placed, and it has ended. -/
def sealed (context : Context) : Context :=
  context.modifyModule fun _ => { context.currentModule.placeLiterals.1 with ended := true }

/-- The current module gives an object module, unless it is the anonymous one and empty. -/
def gives (context : Context) : Bool :=
  context.pass = .two &&
    !(context.moduleIndex = anonymousModule && context.currentModule.isEmpty)

/-- The current module is closed. -/
def closed (context : Context) : Context :=
  if context.sealed.gives then
    { context.sealed with
      objects := context.objects.push context.sealed.currentModule.toObject }
  else context.sealed

/-- The anonymous module is made current. -/
def left (context : Context) : Context :=
  { context.resetModuleState with moduleIndex := anonymousModule }

/-- The module with this place is made current. -/
def entered (context : Context) (index : Nat) : Context :=
  { context.resetModuleState with
    moduleIndex := index, modulesOpened := context.modulesOpened + 1 }

/-- No module has ended that is current, or may be entered later in the pass. -/
structure Open (context : Context) : Prop where
  current : context.currentModule.ended = false
  anonymous : (context.moduleAt anonymousModule).ended = false
  current_le : context.pass = .two → context.moduleIndex ≤ context.modulesOpened
  ahead : context.pass = .two → ∀ index, context.modulesOpened < index →
    (context.moduleAt index).ended = false

variable {context : Context}

@[simp] theorem closed_modules (context : Context) :
    context.closed.modules = context.sealed.modules := by
  unfold closed
  split <;> rfl

@[simp] theorem closed_pass (context : Context) : context.closed.pass = context.pass := by
  unfold closed
  split <;> rfl

@[simp] theorem closed_modulesOpened (context : Context) :
    context.closed.modulesOpened = context.modulesOpened := by
  unfold closed
  split <;> rfl

theorem moduleAt_closed (context : Context) (index : Nat) :
    context.closed.moduleAt index = context.sealed.moduleAt index :=
  moduleAt_of_modules (closed_modules context) index

/-- Closing has to do with no other module. -/
theorem moduleAt_sealed_of_ne {index : Nat} (other : context.moduleIndex ≠ index) :
    context.sealed.moduleAt index = context.moduleAt index := by
  unfold sealed
  rw [moduleAt_modifyModule, if_neg fun both => other both.1]

theorem moduleAt_sealed_self (current : context.moduleIndex < context.modules.length) :
    context.sealed.moduleAt context.moduleIndex =
      { context.currentModule.placeLiterals.1 with ended := true } := by
  unfold sealed
  rw [moduleAt_modifyModule, if_pos ⟨rfl, current⟩]

theorem Open.leave (opened : context.Open) : context.left.Open :=
  ⟨opened.anonymous, opened.anonymous, fun _ => Nat.zero_le _, opened.ahead⟩

theorem Open.enter (opened : context.Open) {index : Nat}
    (fresh : (context.moduleAt index).ended = false)
    (next : context.pass = .two → index = context.modulesOpened + 1) :
    (context.entered index).Open where
  current := fresh
  anonymous := opened.anonymous
  current_le second := Nat.le_of_eq (next second)
  ahead second other beyond := opened.ahead second other (Nat.lt_of_succ_lt beyond)

/-- A module that is closed is left. -/
theorem Open.close (opened : context.Open) (inside : context.moduleIndex ≠ anonymousModule)
    (statement : StatementState) (listing : Array Listing.Item) :
    ({ context.closed with statement, listing } : Context).left.Open := by
  have anonymous : (context.closed.moduleAt anonymousModule).ended = false := by
    rw [moduleAt_closed, moduleAt_sealed_of_ne inside]
    exact opened.anonymous
  refine ⟨anonymous, anonymous, fun _ => Nat.zero_le _, fun second index beyond => ?_⟩
  change (context.closed.moduleAt index).ended = false
  change context.closed.pass = .two at second
  change context.closed.modulesOpened < index at beyond
  rw [closed_pass] at second
  rw [closed_modulesOpened] at beyond
  have behind : context.moduleIndex ≠ index := fun same =>
    Nat.not_lt.mpr (opened.current_le second) (same ▸ beyond)
  rw [moduleAt_closed, moduleAt_sealed_of_ne behind]
  exact opened.ahead second index beyond

end Context

namespace Asm

/-- Contexts of a pass, with the references to literals that are made on the way. -/
inductive Session (start : Context) : List Reference → Context → Prop
  | refl : Session start [] start
  | run {references more : List Reference} {context after : Context} :
      Session start references context → Run context more after →
      Session start (references ++ more) after
  | enter {references : List Reference} {context : Context} (index : Nat) :
      Session start references context → index < context.modules.length →
      (context.moduleAt index).ended = false →
      (context.pass = .two → index = context.modulesOpened + 1) →
      Session start references (context.entered index)
  | leave {references : List Reference} {context : Context} :
      Session start references context → Session start references context.left
  | close {references : List Reference} {context : Context} (statement : StatementState)
      (listing : Array Listing.Item) :
      Session start references context → context.moduleIndex ≠ Context.anonymousModule →
      Session start references ({ context.closed with statement, listing } : Context).left

/-- What a pass that began at `start` leads to. -/
structure Sessions (start context : Context) : Prop where
  steps : Steps start context
  session : start.Open → ∃ references, Session start references context

section Runs

variable {start context after : Context} {references more : List Reference}

theorem Run.stays_open (run : Run start references context) (opened : start.Open) : context.Open := by
  have level := run.level
  refine ⟨?_, (run.ended _).trans opened.anonymous, fun second => ?_, fun second index beyond => ?_⟩
  · change (context.moduleAt context.moduleIndex).ended = false
    rw [run.ended, level.moduleIndex]
    exact opened.current
  · rw [level.moduleIndex, level.modulesOpened]
    exact opened.current_le (level.pass.symm.trans second)
  · rw [run.ended]
    rw [level.modulesOpened] at beyond
    exact opened.ahead (level.pass.symm.trans second) index beyond

theorem Session.stays_open (session : Session start references context) (opened : start.Open) :
    context.Open := by
  induction session with
  | refl => exact opened
  | run _ run ih => exact run.stays_open ih
  | enter index _ _ fresh next ih => exact ih.enter fresh next
  | leave _ ih => exact ih.leave
  | close statement listing _ inside ih => exact ih.close inside statement listing

theorem Session.trans (first : Session start references context)
    (second : Session context more after) : Session start (references ++ more) after := by
  induction second with
  | refl =>
    rw [List.append_nil]
    exact first
  | run _ run ih =>
    rw [← List.append_assoc]
    exact ih.run run
  | enter index _ known fresh next ih => exact ih.enter index known fresh next
  | leave _ ih => exact ih.leave
  | close statement listing _ inside ih => exact ih.close statement listing inside

/-- Closing a module and leaving it are steps. -/
theorem steps_close (context : Context) (statement : StatementState)
    (listing : Array Listing.Item) :
    Steps context ({ context.closed with statement, listing } : Context).left := by
  have placed : Steps context context.sealed := .single .placeLiterals
  have closed : Steps context context.closed := by
    unfold Context.closed
    split
    case isTrue wanted =>
      have second : context.sealed.pass = .two :=
        of_decide_eq_true (Bool.and_eq_true_iff.mp wanted).1
      exact placed.tail (.produce second)
    case isFalse => exact placed
  exact (closed.tail (.aside ..)).tail .leave

theorem Session.steps (session : Session start references context) : Steps start context := by
  induction session with
  | refl => exact .refl
  | run _ run ih => exact ih.trans run.steps
  | enter index _ known _ _ ih => exact ih.tail (.enter index known)
  | leave _ ih => exact ih.tail .leave
  | close statement listing _ _ ih => exact ih.trans (steps_close _ statement listing)

theorem Sessions.refl : Sessions start start :=
  ⟨.refl, fun _ => ⟨[], .refl⟩⟩

theorem Sessions.deeds (sessions : Sessions start context) (deeds : Deeds context after) :
    Sessions start after := by
  obtain ⟨more, run⟩ := deeds
  refine ⟨sessions.steps.trans run.steps, fun opened => ?_⟩
  obtain ⟨references, session⟩ := sessions.session opened
  exact ⟨_, session.run run⟩

theorem Sessions.leave (sessions : Sessions start context) : Sessions start context.left := by
  refine ⟨sessions.steps.tail .leave, fun opened => ?_⟩
  obtain ⟨references, session⟩ := sessions.session opened
  exact ⟨_, session.leave⟩

/-- A module is entered that has not ended, if no module has that may be entered. -/
theorem Sessions.enter (sessions : Sessions start context) {index : Nat}
    (known : index < context.modules.length)
    (fresh : context.Open → (context.moduleAt index).ended = false)
    (next : context.pass = .two → index = context.modulesOpened + 1) :
    Sessions start (context.entered index) := by
  refine ⟨sessions.steps.tail (.enter index known), fun opened => ?_⟩
  obtain ⟨references, session⟩ := sessions.session opened
  exact ⟨_, session.enter index known (fresh (session.stays_open opened)) next⟩

theorem Sessions.close (sessions : Sessions start context)
    (inside : context.moduleIndex ≠ Context.anonymousModule) (statement : StatementState)
    (listing : Array Listing.Item) :
    Sessions start ({ context.closed with statement, listing } : Context).left := by
  refine ⟨sessions.steps.trans (steps_close context statement listing), fun opened => ?_⟩
  obtain ⟨references, session⟩ := sessions.session opened
  exact ⟨_, session.close statement listing inside⟩

end Runs

end Asm

end CrayAssembler
