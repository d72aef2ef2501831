import CrayAssembler.Proofs.Assembly.Conditions
import CrayAssembler.Proofs.Assembly.Finishing
import CrayAssembler.Proofs.Assembly.Nesting
import CrayAssembler.Proofs.Likeness.Statements

namespace CrayAssembler

namespace Asm

/-- A statement without an operand that marks a branch of the condition with this name. -/
structure Marks (context : Context) (text name mark : String) : Prop where
  plain : Fields.isComment text.toList = false
  location : (statementFields context text).location = name
  result : (statementFields context text).result = mark
  operand : (statementFields context text).operand = ""
  original : context.findSynonym? mark = none
  undefined : context.findMacro? mark = none

instance (context : Context) (text name mark : String) : Decidable (Marks context text name mark) :=
  decidable_of_iff (Fields.isComment text.toList = false ∧
      (statementFields context text).location = name ∧ (statementFields context text).result = mark ∧
      (statementFields context text).operand = "" ∧ context.findSynonym? mark = none ∧
      context.findMacro? mark = none)
    ⟨fun ⟨plain, location, result, operand, original, undefined⟩ =>
      ⟨plain, location, result, operand, original, undefined⟩,
    fun marks => ⟨marks.plain, marks.location, marks.result, marks.operand, marks.original,
      marks.undefined⟩⟩

/-- A line that is passed over on the way to a statement with this name. -/
def Passed (context : Context) (name text : String) : Prop :=
  Fields.isComment text.toList ∨ (statementFields context text).location ≠ name

instance (context : Context) (name text : String) : Decidable (Passed context name text) :=
  inferInstanceAs (Decidable (_ ∨ _))

/-- The operation that a statement names. -/
def operation (context : Context) (fields : Fields) : String :=
  (context.findSynonym? fields.result).getD fields.result

/-- A condition with this name that does not count the statements to be passed over, and in which no
error is found. -/
structure Tests (context : Context) (line : SourceLine) (name : String) (directive : Directive) :
    Prop where
  plain : Fields.isComment line.text.toList = false
  location : (statementFields context line.text).location = name
  result : (statementFields context line.text).result ≠ ""
  undefined : context.findMacro? (operation context (statementFields context line.text)) = none
  known : Directive.ofName? (operation context (statementFields context line.text)) = some directive
  conditional : directive ∈ Directive.conditions
  uncounted : (counted directive (Fields.subfields (statementFields context line.text).operand)).filter
    (!·.isEmpty) = none
  sound : (bodyOf context line).statement.diagnostics.hasErrors = false

instance (context : Context) (line : SourceLine) (name : String) (directive : Directive) :
    Decidable (Tests context line name directive) :=
  let fields := statementFields context line.text
  decidable_of_iff (Fields.isComment line.text.toList = false ∧ fields.location = name ∧
      fields.result ≠ "" ∧ context.findMacro? (operation context fields) = none ∧
      Directive.ofName? (operation context fields) = some directive ∧
      directive ∈ Directive.conditions ∧
      (counted directive (Fields.subfields fields.operand)).filter (!·.isEmpty) = none ∧
      (bodyOf context line).statement.diagnostics.hasErrors = false)
    ⟨fun ⟨plain, location, result, undefined, known, conditional, uncounted, sound⟩ =>
      ⟨plain, location, result, undefined, known, conditional, uncounted, sound⟩,
    fun tests => ⟨tests.plain, tests.location, tests.result, tests.undefined, tests.known,
      tests.conditional, tests.uncounted, tests.sound⟩⟩

section Between

variable {here there : Context}

theorem statementFields_unlogged (context : Context) (text : String) :
    statementFields context.unlogged text = statementFields context text := by
  have micros : context.unlogged.findMicro? = context.findMicro? := rfl
  unfold statementFields fieldsOf
  rw [micros]
  rfl

theorem statementFields_skip (context : Context) (skip : Option Skip) (text : String) :
    statementFields { context with skip } text = statementFields context text := by
  have micros : Context.findMicro? { context with skip } = context.findMicro? := rfl
  unfold statementFields fieldsOf
  rw [micros]

theorem skip_of_unlogged (same : here.unlogged = there.unlogged) : here.skip = there.skip :=
  (congrArg Context.skip same :)

theorem capture_of_unlogged (same : here.unlogged = there.unlogged) : here.capture = there.capture :=
  (congrArg Context.capture same :)

theorem unlogged_finished {context : Context} (mild : Mild context.statement) (text : String) :
    (context.finished text).unlogged = context.unlogged := by
  unfold Context.finished
  rw [if_neg mild.stays_inside]
  split
  · unfold Context.counted Tally.add
    rw [errorCount_of_warnings mild.warnings]
    rfl
  · rfl

theorem unlogged_of_mild {context : Context} {line : SourceLine}
    (mild : Mild (bodyOf context line).statement) :
    ((assembleSourceLine line).run context).2.unlogged = (bodyOf context line).unlogged := by
  obtain ⟨listing, ran⟩ := assembleSourceLine_eq mild.keep
  rw [ran]
  exact unlogged_finished mild line.text

theorem unlogged_met (context : Context) (line : SourceLine) {skip : Option Skip}
    (after : (passOver (statementFields context line.text) context.skip).2 = skip) :
    (met (context.begun line) line.text).unlogged = { context with skip }.unlogged := by
  have fields : statementFields (context.begun line) line.text = statementFields context line.text :=
    statementFields_withStatement context line.text _
  unfold met
  rw [fields, ← after]
  rfl

/-- What is to be seen of a statement that nothing is done with is where the passing over ends. -/
theorem unlogged_of_met {context : Context} {line : SourceLine} {skip : Option Skip}
    (body : bodyOf context line = met (context.begun line) line.text)
    (after : (passOver (statementFields context line.text) context.skip).2 = skip) :
    ((assembleSourceLine line).run context).2.unlogged = { context with skip }.unlogged := by
  have mild : Mild (bodyOf context line).statement := body ▸ (mild_begun context line).met _
  rw [unlogged_of_mild mild, body, unlogged_met context line after]

/-- A statement that is passed over, or the comment between two. -/
theorem unlogged_passed {context : Context} {line : SourceLine} {name : String}
    (outside : context.capture = none) (skipping : context.skip = some (.untilLocation name))
    (passed : Passed context name line.text) :
    ((assembleSourceLine line).run context).2.unlogged = context.unlogged := by
  cases comment : Fields.isComment line.text.toList with
  | true =>
    have body := bodyOf_comment outside comment
    rw [unlogged_of_mild (body ▸ mild_begun context line), body]
    rfl
  | false =>
    have elsewhere := passed.resolve_left (comment ▸ Bool.false_ne_true)
    have passing : passOver (statementFields context line.text) context.skip =
        (true, some (.untilLocation name)) := by
      rw [skipping, passOver, if_pos elsewhere]
    have body : bodyOf context line = met (context.begun line) line.text := by
      rw [bodyOf_statement outside comment, passing, if_pos rfl]
    rw [unlogged_of_met body (congrArg Prod.snd passing), ← skipping]

theorem Passed.along {name text : String} (same : here.unlogged = there.unlogged)
    (passed : Passed here name text) : Passed there name text := by
  unfold Passed
  rwa [← statementFields_unlogged there, ← same, statementFields_unlogged here]

theorem Passed.withSkip {context : Context} {name text : String} (passed : Passed context name text)
    (skip : Option Skip) : Passed { context with skip } name text := by
  unfold Passed
  rwa [statementFields_skip]

theorem unlogged_passedLines {context : Context} {lines : List SourceLine} {name : String}
    (outside : context.capture = none) (skipping : context.skip = some (.untilLocation name))
    (passed : ∀ line ∈ lines, Passed context name line.text) :
    ((lines.forM assembleSourceLine).run context).2.unlogged = context.unlogged := by
  induction lines generalizing context with
  | nil => rfl
  | cons line rest ih =>
    obtain ⟨first, others⟩ := List.forall_mem_cons.mp passed
    have same := unlogged_passed outside skipping first
    have later := @ih ((assembleSourceLine line).run context).2
      ((capture_of_unlogged same).trans outside)
      ((skip_of_unlogged same).trans skipping)
      fun line member => (others line member).along same.symm
    exact later.trans same

/-- A statement that marks a branch is given to its directive, where it is assembled. -/
theorem Marks.bodyOf {context : Context} {line : SourceLine} {name mark : String}
    {directive : Directive} (marks : Marks context line.text name mark)
    (known : Directive.ofName? mark = some directive) (outside : context.capture = none)
    (assembled : (passOver (statementFields context line.text) context.skip).1 = false) :
    Asm.bodyOf context line =
      ((directive.run (statementFields context line.text)).run
        (met (context.begun line) line.text)).2 := by
  have filled : (statementFields context line.text).result ≠ "" := by
    rw [marks.result]
    rintro rfl
    nomatch known
  have named : ((met (context.begun line) line.text).findSynonym?
      (statementFields context line.text).result).getD (statementFields context line.text).result =
        mark := by
    rw [marks.result]
    exact congrArg (Option.getD · mark) marks.original
  have undefined : (met (context.begun line) line.text).findMacro? mark = none := marks.undefined
  have same : { statementFields context line.text with result := mark } =
      statementFields context line.text := by rw [← marks.result]
  rw [bodyOf_statement outside marks.plain, if_neg (Bool.eq_false_iff.mp assembled),
    run_dispatch_directive filled (named ▸ undefined) (named ▸ known), named, same]

/-- The other branch begins after the one that was assembled. -/
theorem unlogged_otherwise {context : Context} {line : SourceLine} {name : String}
    (identifier : Fields.isIdentifier name) (outside : context.capture = none)
    (unskipped : context.skip = none) (marks : Marks context line.text name "ELSE") :
    ((assembleSourceLine line).run context).2.unlogged =
      { context with skip := some (.untilLocation name) }.unlogged := by
  have passing : passOver (statementFields context line.text) context.skip = (false, none) := by
    rw [unskipped]
    rfl
  have body : bodyOf context line =
      { met (context.begun line) line.text with skip := some (.untilLocation name) } := by
    rw [marks.bodyOf rfl outside (congrArg Prod.fst passing)]
    change ((Asm.otherwise _).run _).2 = _
    unfold Asm.otherwise noOperand
    rw [marks.location, marks.operand, if_neg (nonempty_of_isIdentifier identifier)]
    rfl
  have mild : Mild (bodyOf context line).statement := body ▸ (mild_begun context line).met _
  rw [unlogged_of_mild mild, body]
  exact congrArg (fun context : Context => { context with skip := some (.untilLocation name) })
    (unlogged_met context line (congrArg Prod.snd passing))

/-- The other branch begins after the one that was passed over. -/
theorem unlogged_otherBranch {context : Context} {line : SourceLine} {name : String}
    (outside : context.capture = none) (skipping : context.skip = some (.untilLocation name))
    (marks : Marks context line.text name "ELSE") :
    ((assembleSourceLine line).run context).2.unlogged = { context with skip := none }.unlogged := by
  have passing : passOver (statementFields context line.text) context.skip = (true, none) := by
    rw [skipping, passOver, if_neg (not_not.mpr marks.location), marks.result]
    rfl
  have body : bodyOf context line = met (context.begun line) line.text := by
    rw [bodyOf_statement outside marks.plain, passing, if_pos rfl]
  exact unlogged_of_met body (congrArg Prod.snd passing)

/-- Nothing is passed over any more after the last branch. -/
theorem unlogged_ending {context : Context} {line : SourceLine} {name : String}
    (identifier : Fields.isIdentifier name) (outside : context.capture = none)
    (skipping : context.skip = none ∨ context.skip = some (.untilLocation name))
    (marks : Marks context line.text name "ENDIF") :
    ((assembleSourceLine line).run context).2.unlogged = { context with skip := none }.unlogged := by
  have passing : passOver (statementFields context line.text) context.skip = (false, none) := by
    rcases skipping with none | until'
    · rw [none]
      rfl
    · rw [until', passOver, if_neg (not_not.mpr marks.location), marks.result]
      rfl
  have body : bodyOf context line = met (context.begun line) line.text := by
    rw [marks.bodyOf rfl outside (congrArg Prod.fst passing)]
    change ((Asm.endCondition _).run _).2 = _
    unfold Asm.endCondition noOperand
    rw [marks.location, marks.operand, if_neg (nonempty_of_isIdentifier identifier)]
    rfl
  exact unlogged_of_met body (congrArg Prod.snd passing)

end Between

section Deciding

variable {M : Context → Context → Prop} {directive : Directive} {fields : Fields} {context : Context}

theorem Reading.decision (reading : Reading M) (directive : Directive) (fields : Fields) :
    Together M (decision directive fields) := by
  have malformed : Together M decision.malformed := reading.fail _ _
  unfold Asm.decision
  split
  case h_1 property label rest _ =>
    split
    · exact malformed
    · refine .bindSame (fun here there alike => ?_) fun context => ?_
      · have same (property : String) := reading.attributeHolds? alike property label
        unfold attributeCondition?
        simp only [same]
      · split
        · exact .pure _
        · exact malformed
  case h_2 =>
    split
    · exact malformed
    split
    · exact malformed
    · exact .pure _
  case h_3 =>
    split
    · exact malformed
    · exact (reading.consults.expressionCondition _ _ _).1
  case h_4 => exact malformed

/-- What the lines that follow are done with is as it was. -/
structure Undiverted (start context : Context) : Prop where
  skip : context.skip = start.skip
  capture : context.capture = start.capture
  frameChange : context.statement.frameChange = start.statement.frameChange

theorem undiverted_decision (directive : Directive) (fields : Fields) (context : Context) :
    Undiverted context ((decision directive fields).run context).2 := by
  have reading : Reading (Solely (Undiverted context)) :=
    reading_solely (fun _ undiverted => ⟨undiverted.skip, undiverted.capture, undiverted.frameChange⟩)
      fun kept undiverted =>
        ⟨undiverted.skip, undiverted.capture, (kept _).trans undiverted.frameChange⟩
  exact (reading.decision directive fields context context ⟨rfl, rfl, rfl, rfl⟩).2.known

/-- Whatever is known of the statement, it decides the same. -/
theorem decision_eq (directive : Directive) (fields : Fields) {here there : Context}
    (same : here.unlogged = there.unlogged) :
    ((decision directive fields).run here).1 = ((decision directive fields).run there).1 :=
  (likeness_unlogged.toReading.decision directive fields here there same).1

/-- What is not well formed decides nothing. -/
theorem hasErrors_of_undecided
    (undecided : ((decision directive fields).run context).1 = none) :
    ((decision directive fields).run context).2.statement.diagnostics.hasErrors := by
  have malformed : ((decision.malformed).run context).2.statement.diagnostics.hasErrors := by
    have drawn := contains_insert context.statement.diagnostics (d := .error .operandField) (by decide)
    exact List.any_eq_true.mpr ⟨_, List.contains_iff_mem.mp drawn, rfl⟩
  revert undecided
  unfold decision
  split
  case h_1 property label rest _ =>
    split
    · exact fun _ => malformed
    · rw [StateT.run_bind, StateT.run_get, pure_bind]
      split
      · exact fun undecided => nomatch undecided
      · exact fun _ => malformed
  case h_2 =>
    split
    · exact fun _ => malformed
    split
    · exact fun _ => malformed
    · exact fun undecided => nomatch undecided
  case h_3 left relation right rest _ =>
    split
    · exact fun _ => malformed
    · intro undecided
      rw [run_expressionCondition] at undecided
      have unknown := Option.map_eq_none_iff.mp undecided
      unfold expressionCondition
      rw [unknown]
      exact malformed
  case h_4 => exact fun _ => malformed

end Deciding

section Blocks

variable {context : Context} {name : String} {directive : Directive}
  {test otherwise ending : SourceLine} {first second : List SourceLine}

theorem run_conclude {fields : Fields} (identifier : Fields.isIdentifier fields.location)
    {part : Option String} (uncounted : part.filter (!·.isEmpty) = none) (holds : Bool)
    (context : Context) :
    ((conclude fields holds part).run context).2 =
      { context with
        skip := if holds then context.skip else some (.untilLocation fields.location) } := by
  have named : ¬ (!fields.location.isEmpty && !Fields.isIdentifier fields.location) := by
    rw [identifier, Bool.not_true, Bool.and_false]
    exact Bool.false_ne_true
  have nonempty : skipAfter fields.location none = some (.untilLocation fields.location) := by
    unfold skipAfter
    exact congrArg some (if_neg (nonempty_of_isIdentifier identifier))
  unfold conclude
  dsimp only
  rw [if_neg named, uncounted, nonempty]
  cases holds <;> rfl

/-- A condition acts on what it decides. -/
theorem Tests.bodyOf (tests : Tests context test name directive) (unskipped : context.skip = none)
    (outside : context.capture = none) :
    Asm.bodyOf context test =
      let fields := statementFields context test.text
      let decided := (decision directive fields).run (met (context.begun test) test.text)
      match decided.1 with
      | some holds =>
        ((conclude { fields with result := operation context fields } holds
          (counted directive (Fields.subfields fields.operand))).run decided.2).2
      | none => decided.2 := by
  have passing : passOver (statementFields context test.text) context.skip = (false, none) := by
    rw [unskipped]
    rfl
  have dispatched := @run_dispatch_directive (met (context.begun test) test.text) _ _ tests.result
    tests.undefined tests.known
  have same (fields : Fields) (result : String) :
      decision directive { fields with result } = decision directive fields := rfl
  rw [bodyOf_statement outside tests.plain, passing, if_neg Bool.false_ne_true, dispatched,
    run_condition tests.conditional, StateT.run_bind, same]
  dsimp only
  rcases (decision directive (statementFields context test.text)).run
    (met (context.begun test) test.text) with ⟨_ | holds, after⟩
  · rfl
  · rfl

theorem unlogged_met_begun (unskipped : context.skip = none) (line : SourceLine) :
    (met (context.begun line) line.text).unlogged = context.unlogged := by
  have passing : (passOver (statementFields context line.text) context.skip).2 = none := by
    rw [unskipped]
    rfl
  rw [unlogged_met context line passing, ← unskipped]

/-- A condition in which no error is found is met, or it is not. -/
theorem Tests.decided (tests : Tests context test name directive) (unskipped : context.skip = none)
    (outside : context.capture = none) : ∃ holds,
      ((decision directive (statementFields context test.text)).run context).1 = some holds := by
  have same := decision_eq directive (statementFields context test.text)
    (unlogged_met_begun unskipped test)
  rw [← same]
  refine Option.ne_none_iff_exists'.mp fun undecided => ?_
  have sound := tests.sound
  rw [tests.bodyOf unskipped outside] at sound
  dsimp only at sound
  rw [undecided] at sound
  exact Bool.eq_false_iff.mp sound (hasErrors_of_undecided undecided)

/-- What is passed over after a condition. -/
theorem Tests.skip (tests : Tests context test name directive) (unskipped : context.skip = none)
    (outside : context.capture = none) (identifier : Fields.isIdentifier name) {holds : Bool}
    (decided : ((decision directive (statementFields context test.text)).run context).1 =
      some holds) :
    ((assembleSourceLine test).run context).2.skip =
        (if holds then none else some (.untilLocation name)) ∧
      ((assembleSourceLine test).run context).2.capture = none := by
  have same := decision_eq directive (statementFields context test.text)
    (unlogged_met_begun unskipped test)
  have undiverted := undiverted_decision directive (statementFields context test.text)
    (met (context.begun test) test.text)
  have skip : (met (context.begun test) test.text).skip = none :=
    (skip_of_unlogged (unlogged_met_begun unskipped test)).trans unskipped
  have body := tests.bodyOf unskipped outside
  dsimp only at body
  rw [same, decided] at body
  dsimp only at body
  rw [run_conclude (tests.location ▸ identifier) tests.uncounted, undiverted.skip, skip] at body
  have single : (Asm.bodyOf context test).statement.frameChange = .keep := by
    rw [body]
    exact undiverted.frameChange
  obtain ⟨listing, ran⟩ := assembleSourceLine_eq single
  have finished (context : Context) (text : String) :
      (context.finished text).skip = context.skip ∧
        (context.finished text).capture = context.capture := by
    unfold Context.finished
    dsimp only
    split <;> split <;> exact ⟨rfl, rfl⟩
  rw [ran]
  refine ⟨(finished _ _).1.trans ?_, (finished _ _).2.trans ?_⟩
  · rw [body, tests.location]
  · rw [body]
    exact undiverted.capture.trans outside

/-- A mark stays what it is, whatever is only written. -/
theorem Marks.along {here there : Context} {text mark : String} (same : here.unlogged = there.unlogged)
    (marks : Marks here text name mark) : Marks there text name mark := by
  have fields : statementFields here text = statementFields there text := by
    rw [← statementFields_unlogged here, same, statementFields_unlogged]
  have veiled : Veiled (fun _ => {}) here there := same
  have synonym := veiled.view_eq (Context.findSynonym? · mark) fun _ => rfl
  have definition := veiled.view_eq (Context.findMacro? · mark) fun _ => rfl
  exact ⟨marks.plain, fields ▸ marks.location, fields ▸ marks.result, fields ▸ marks.operand,
    synonym ▸ marks.original, definition ▸ marks.undefined⟩

theorem Marks.withSkip {text mark : String} (marks : Marks context text name mark)
    (skip : Option Skip) : Marks { context with skip } text name mark := by
  have fields := statementFields_skip context skip text
  exact ⟨marks.plain, fields ▸ marks.location, fields ▸ marks.result, fields ▸ marks.operand,
    marks.original, marks.undefined⟩

theorem run_block (context : Context) :
    ((test :: first ++ otherwise :: second ++ [ending]).forM assembleSourceLine).run context =
      (assembleSourceLine ending).run ((second.forM assembleSourceLine).run
        ((assembleSourceLine otherwise).run ((first.forM assembleSourceLine).run
          ((assembleSourceLine test).run context).2).2).2).2 := by
  change (forM (test :: first ++ otherwise :: second ++ [ending]) assembleSourceLine).run context = _
  rw [List.forM_append, List.forM_append]
  rfl

/-- The first branch was assembled, and the second one is passed over. -/
theorem unlogged_afterFirst (identifier : Fields.isIdentifier name) (unskipped : context.skip = none)
    (outside : context.capture = none) (other : Marks context otherwise.text name "ELSE")
    (passed : ∀ line ∈ second, Passed context name line.text)
    (last : Marks context ending.text name "ENDIF") :
    ((assembleSourceLine ending).run ((second.forM assembleSourceLine).run
      ((assembleSourceLine otherwise).run context).2).2).2.unlogged = context.unlogged := by
  have begins := unlogged_otherwise identifier outside unskipped other
  generalize ((assembleSourceLine otherwise).run context).2 = begun at begins ⊢
  have unnamed : ∀ line ∈ second, Passed begun name line.text := fun line member =>
    ((passed line member).withSkip _).along begins.symm
  have passes := (unlogged_passedLines ((capture_of_unlogged begins).trans outside)
    (skip_of_unlogged begins) unnamed).trans begins
  generalize ((second.forM assembleSourceLine).run begun).2 = ended at passes ⊢
  have ends := unlogged_ending identifier ((capture_of_unlogged passes).trans outside)
    (.inr (skip_of_unlogged passes)) ((last.withSkip _).along passes.symm)
  rw [ends]
  have shown := congrArg (fun context : Context => { context with skip := none }) passes
  refine Eq.trans shown ?_
  rw [← unskipped]
  rfl

/-- The first branch is passed over, and the second one is assembled. -/
theorem unlogged_afterSecond (identifier : Fields.isIdentifier name)
    (skipping : context.skip = some (.untilLocation name)) (outside : context.capture = none)
    (passed : ∀ line ∈ first, Passed context name line.text)
    (other : Marks context otherwise.text name "ELSE") {alone : Context}
    (ran : ((second.forM assembleSourceLine).run { context with skip := none }).2 = alone)
    (unskipped : alone.skip = none) (free : alone.capture = none)
    (last : Marks alone ending.text name "ENDIF") :
    ((assembleSourceLine ending).run ((second.forM assembleSourceLine).run
      ((assembleSourceLine otherwise).run
        ((first.forM assembleSourceLine).run context).2).2).2).2.unlogged = alone.unlogged := by
  have passes := unlogged_passedLines outside skipping passed
  generalize ((first.forM assembleSourceLine).run context).2 = reached at passes ⊢
  have begins := unlogged_otherBranch ((capture_of_unlogged passes).trans outside)
    ((skip_of_unlogged passes).trans skipping) (other.along passes.symm)
  generalize ((assembleSourceLine otherwise).run reached).2 = begun at begins ⊢
  have same : begun.unlogged = { context with skip := none }.unlogged :=
    begins.trans (congrArg (fun context : Context => { context with skip := none }) passes)
  have together : Together (Veiled fun _ => {}) (second.forM assembleSourceLine) :=
    .forM unlogged_assembleSourceLine
  have taken : ((second.forM assembleSourceLine).run begun).2.unlogged = alone.unlogged :=
    ran ▸ (together begun _ same).2
  generalize ((second.forM assembleSourceLine).run begun).2 = ended at taken ⊢
  have skip : ended.skip = none := (skip_of_unlogged taken).trans unskipped
  rw [unlogged_ending identifier ((capture_of_unlogged taken).trans free) (.inl skip)
    (last.along taken.symm), ← taken, ← skip]

/-- A condition with two branches assembles one of them. From the statement of the condition on it leaves
what that branch leaves on its own, where nothing is passed over at first, but for what is only
written. The other branch is read, for the statements that repeat the name of the condition. -/
theorem block_assembles_one_branch (unskipped : context.skip = none)
    (outside : context.capture = none) (identifier : Fields.isIdentifier name)
    (tests : Tests context test name directive) :
    ∃ holds,
      ((decision directive (statementFields context test.text)).run context).1 = some holds ∧
      let start := { ((assembleSourceLine test).run context).2 with skip := none }
      let taken := if holds then first else second
      let untaken := if holds then second else first
      let alone := ((taken.forM assembleSourceLine).run start).2
      let between := if holds then alone else start
      alone.skip = none → alone.capture = none →
      Marks between otherwise.text name "ELSE" →
      (∀ line ∈ untaken, Passed between name line.text) →
      Marks alone ending.text name "ENDIF" →
      (((test :: first ++ otherwise :: second ++ [ending]).forM assembleSourceLine).run
        context).2.unlogged = alone.unlogged := by
  obtain ⟨holds, decided⟩ := tests.decided unskipped outside
  refine ⟨holds, decided, ?_⟩
  obtain ⟨skip, capture⟩ := tests.skip unskipped outside identifier decided
  rw [run_block]
  generalize ((assembleSourceLine test).run context).2 = tested at skip capture ⊢
  intro start taken untaken alone between
  cases holds with
  | true =>
    have start_eq : start = tested := by
      change { tested with skip := none } = tested
      rw [← show tested.skip = none from skip]
    have alone_eq : alone = ((first.forM assembleSourceLine).run tested).2 :=
      congrArg (fun context => ((first.forM assembleSourceLine).run context).2) start_eq
    intro unskipped outside other passed last
    rw [← alone_eq]
    exact unlogged_afterFirst identifier unskipped outside other passed last
  | false =>
    intro unskipped outside other passed last
    exact unlogged_afterSecond identifier skip capture
      (fun line member => Passed.withSkip (passed line member) tested.skip)
      (Marks.withSkip other tested.skip) rfl unskipped outside last

/-- A condition that is not met, with another one in the branch that is assembled. -/
theorem block_assembles_one_branch_nested :
    let context := Context.initial {} ⟨"", "", ""⟩ "MAIN"
    let test : SourceLine := ⟨1, "L        IFE       1,EQ,2", false⟩
    let first : List SourceLine := [⟨2, "         CON       1", false⟩]
    let otherwise : SourceLine := ⟨3, "L        ELSE", false⟩
    let second : List SourceLine := [⟨4, "M        IFC       AB,EQ,AB", false⟩,
      ⟨5, "         CON       2", false⟩, ⟨6, "M        ENDIF", false⟩]
    let ending : SourceLine := ⟨7, "L        ENDIF", false⟩
    ((decision .ifExpression (statementFields context test.text)).run context).1 = some false ∧
      (((test :: first ++ otherwise :: second ++ [ending]).forM assembleSourceLine).run
        context).2.unlogged =
        ((second.forM assembleSourceLine).run
          { ((assembleSourceLine test).run context).2 with skip := none }).2.unlogged := by
  intro context test first otherwise second ending
  obtain ⟨holds, decided, assembled⟩ := @block_assembles_one_branch context "L" .ifExpression test
    otherwise ending first second rfl rfl (by decide) (by decide +kernel)
  have unmet : ((decision .ifExpression (statementFields context test.text)).run context).1 =
      some false := by decide +kernel
  cases decided.symm.trans unmet
  exact ⟨unmet, assembled (by decide +kernel) (by decide +kernel) (by decide +kernel)
    (by decide +kernel) (by decide +kernel)⟩

end Blocks

end Asm

end CrayAssembler
