import CrayAssembler.Proofs.Akin.Basic
import CrayAssembler.Proofs.Assembly.Finishing
import CrayAssembler.Proofs.Likeness.Basic

namespace CrayAssembler

/-- As much is seen of counts that the diagnostics of a statement can be added to, and so that nothing is
added where there are none. -/
structure Counts (view : Tally → Tally) : Prop where
  add : ∀ {tally other : Tally} (diagnostics : DiagnosticSet), view tally = view other →
    view (tally.add diagnostics) = view (other.add diagnostics)
  empty : ∀ tally : Tally, view (tally.add .empty) = view tally

/-- Captures that differ by comments. -/
inductive Capture.Alike : Capture → Capture → Prop
  | prototype : Alike .prototype .prototype
  | definition (parts : Prototype) {body other : List String}
      (same : plainLines body = plainLines other) :
      Alike (.definition parts body) (.definition parts other)
  | group (name : String) (count : Nat) (statements : Option Nat) {body other : List String}
      (same : plainLines body = plainLines other) :
      Alike (.group name count statements body) (.group name count statements other)

theorem Capture.alike_of_plain : ∀ {capture other : Capture}, capture.plain = other.plain →
    capture.Alike other
  | .prototype, .prototype, _ => .prototype
  | .definition .., .definition .., same => by
    injection same with parts lines
    subst parts
    exact .definition _ lines
  | .group .., .group .., same => by
    injection same with name count statements lines
    subst name count statements
    exact .group _ _ _ lines

theorem FrameChange.plain_ite (kind : FrameKind) (number : LineNumber) (lines : List String) :
    (if lines.isEmpty then FrameChange.keep else .push ⟨kind, number, lines⟩).plain =
      if plainLines lines = [] then .keep else .push ⟨kind, 0, plainLines lines⟩ := by
  cases lines <;> rfl

/-- The contexts are akin, whatever is known of the last statement. -/
def Rests (view : Tally → Tally) (here there : Context) : Prop :=
  Akin view here.rest there.rest

theorem Rests.symm {view : Tally → Tally} {here there : Context} (rests : Rests view here there) :
    Rests view there here :=
  Akin.symm rests

theorem Rests.trans {view : Tally → Tally} {here there further : Context}
    (first : Rests view here there) (second : Rests view there further) : Rests view here further :=
  Akin.trans first second

namespace Akin

variable {view : Tally → Tally} {here there : Context}

theorem statement (akin : Akin view here there) : here.statement.plain = there.statement.plain :=
  congrArg Context.statement akin.plain

theorem diagnostics (akin : Akin view here there) :
    here.statement.diagnostics = there.statement.diagnostics :=
  (congrArg StatementState.diagnostics akin.statement :)

/-- Statements that differ by comments and numbers of lines. -/
theorem state (akin : Akin view here there) {statement other : StatementState}
    (same : statement.plain = other.plain) :
    Akin view { here with statement } { there with statement := other } where
  plain := by
    have rest := congrArg (fun context : Context => { context with statement := statement.plain })
      akin.plain
    refine rest.trans ?_
    rw [same]
    rfl
  macros := akin.macros
  pending := akin.pending

theorem rest (akin : Akin view here there) : Akin view here.rest there.rest :=
  akin.state rfl

theorem left (akin : Akin view here there) : Akin view here.left there.left :=
  akin.aside Context.left (fun _ => rfl) (fun _ => rfl) fun _ => rfl

/-- Reports that differ by the numbers of lines. -/
theorem reported (counts : Counts view) (akin : Akin view here there) (diagnostics : DiagnosticSet)
    {reports others : Array Report} (same : reports.map Report.plain = others.map Report.plain) :
    Akin view { here with tally := here.tally.add diagnostics, reports }
      { there with tally := there.tally.add diagnostics, reports := others } where
  plain := by
    have added := counts.add diagnostics (congrArg Context.tally akin.plain :)
    have rest := congrArg (fun context : Context =>
      { context with
        tally := view (here.tally.add diagnostics)
        reports := reports.map Report.plain }) akin.plain
    refine rest.trans ?_
    rw [same, added]
    rfl
  macros := akin.macros
  pending := akin.pending

theorem reports (akin : Akin view here there) :
    here.reports.map Report.plain = there.reports.map Report.plain :=
  (congrArg Context.reports akin.plain :)

theorem push_report (akin : Akin view here there) (number number' : LineNumber) (text : String)
    (diagnostics : List Diagnostic) :
    (here.reports.push ⟨number, text, diagnostics⟩).map Report.plain =
      (there.reports.push ⟨number', text, diagnostics⟩).map Report.plain := by
  rw [Array.map_push, Array.map_push, akin.reports]
  rfl

theorem counted (counts : Counts view) (akin : Akin view here there) (number number' : LineNumber)
    (text : String) (diagnostics : DiagnosticSet) :
    Akin view (here.counted number text diagnostics) (there.counted number' text diagnostics) := by
  refine akin.reported counts diagnostics ?_
  split
  · exact akin.reports
  · exact akin.push_report number number' text _

theorem refl {context : Context} (pending : ∀ capture ∈ context.capture, capture.Pending) :
    Akin view context context :=
  ⟨rfl, fun _ _ => rfl, pending⟩

/-- Nothing is counted. -/
theorem uncounted (counts : Counts view) (akin : Akin view here there) (number : LineNumber)
    (text : String) : Akin view here (there.counted number text .empty) where
  plain := by
    have same := congrArg (fun tally => { there.plain view with tally }) (counts.empty there.tally)
    exact akin.plain.trans same.symm
  macros := akin.macros
  pending := akin.pending

/-- Listings may differ. -/
theorem listed (akin : Akin view here there) (listing listing' : Array Listing.Item) :
    Akin view { here with listing } { there with listing := listing' } :=
  ⟨akin.plain, akin.macros, akin.pending⟩

theorem finished (counts : Counts view) (akin : Akin view here there) (text : String) :
    Akin view (here.finished text) (there.finished text) := by
  have pass := akin.view_eq Context.pass fun _ => rfl
  unfold Context.finished
  dsimp only
  rw [akin.diagnostics, pass]
  have next : Akin view
      (if there.statement.diagnostics.contains .moduleEnd then here.rest.left else here.rest)
      (if there.statement.diagnostics.contains .moduleEnd then there.rest.left else there.rest) := by
    split
    · exact akin.rest.left
    · exact akin.rest
  split
  · exact next.counted counts _ _ text _
  · exact next

/-- A macro is entered in both. -/
theorem enterMacro (akin : Akin view here there) (name : String) {definition other : MacroDefinition}
    (same : definition.plain = other.plain) :
    Akin view
      (here.modifyModule fun module => { module with macros := module.macros.insert name definition })
      (there.modifyModule fun module => { module with macros := module.macros.insert name other }) where
  plain := by
    have entered (context : Context) (definition : MacroDefinition) :
        (context.modifyModule fun module =>
          { module with macros := module.macros.insert name definition }).plain view =
            (context.plain view).modifyModule id :=
      context.plain_modifyModule fun _ => rfl
    rw [entered, entered, akin.plain]
  macros index called := by
    have current := akin.view_eq Context.moduleIndex fun _ => rfl
    have length := akin.view_eq (·.modules.length) fun context => List.length_map ..
    have found := akin.macros index called
    unfold Context.macroAt at found ⊢
    rw [Context.moduleAt_modifyModule, Context.moduleAt_modifyModule, current, length]
    split
    · rw [Std.TreeMap.getElem?_insert, Std.TreeMap.getElem?_insert]
      split
      · exact congrArg some same
      · exact found
    · exact found
  pending := akin.pending

end Akin

namespace Asm

variable {view : Tally → Tally} {here there : Context}

/-- The contexts are akin, and their statements have given no lines yet. -/
structure Fresh (view : Tally → Tally) (here there : Context) : Prop where
  akin : Akin view here there
  here_keep : here.statement.frameChange = .keep
  there_keep : there.statement.frameChange = .keep

section Giving

theorem Fresh.pushFrame (fresh : Fresh view here there) (kind : FrameKind) {lines others : List String}
    (same : plainLines lines = plainLines others) :
    Akin view ((pushFrame kind lines).run here).2 ((pushFrame kind others).run there).2 := by
  have frames (number number' : LineNumber) :
      (if lines.isEmpty then FrameChange.keep else .push ⟨kind, number, lines⟩).plain =
        (if others.isEmpty then FrameChange.keep else .push ⟨kind, number', others⟩).plain := by
    rw [FrameChange.plain_ite, FrameChange.plain_ite, same]
  rw [run_pushFrame_eq, run_pushFrame_eq, fresh.here_keep, fresh.there_keep]
  refine fresh.akin.state ?_
  have rest := congrArg (fun statement : StatementState => { statement with
    frameChange := (if lines.isEmpty then FrameChange.keep
      else .push ⟨kind, here.statement.line, lines⟩).plain }) fresh.akin.statement
  refine rest.trans ?_
  rw [frames _ there.statement.line]
  rfl

theorem Fresh.dispatchNamed (fresh : Fresh view here there) (fields : Fields) :
    Meets (Akin view) (dispatchNamed fields) here there := by
  have found := fresh.akin.findMacro? fields.result
  unfold Meets Asm.dispatchNamed
  rw [StateT.run_bind, StateT.run_bind, StateT.run_get, StateT.run_get, pure_bind, pure_bind]
  refine ⟨rfl, ?_⟩
  cases inHere : here.findMacro? fields.result with
  | none =>
    cases inThere : there.findMacro? fields.result with
    | some other =>
      rw [inHere, inThere] at found
      nomatch found
    | none =>
      dsimp only
      split
      · exact ((likeness_akin view).directive _ _ _ _ fresh.akin).2
      · exact ((likeness_akin view).machineInstruction _ _ _ fresh.akin).2
  | some definition =>
    cases inThere : there.findMacro? fields.result with
    | none =>
      rw [inHere, inThere] at found
      nomatch found
    | some other =>
      rw [inHere, inThere] at found
      have expanded := MacroDefinition.plainLines_expand (Option.some.inj found) fields.location
        fields.operand
      dsimp only
      revert expanded
      cases definition.expand fields.location fields.operand with
      | error kind =>
        cases other.expand fields.location fields.operand with
        | error other =>
          intro same
          cases same
          exact ((likeness_akin view).error kind _ _ fresh.akin).2
        | ok lines => exact fun same => nomatch same
      | ok lines =>
        cases other.expand fields.location fields.operand with
        | error other => exact fun same => nomatch same
        | ok others =>
          intro same
          exact fresh.pushFrame .call (Except.ok.inj same)

theorem Fresh.dispatch (fresh : Fresh view here there) (fields : Fields) :
    Meets (Akin view) (dispatch fields) here there := by
  have named := fresh.akin.view_eq (·.findSynonym? fields.result) (Context.findSynonym?_plain · _)
  unfold Asm.dispatch
  split
  · split
    · exact (likeness_akin view).error _ _ _ fresh.akin
    · exact ⟨rfl, fresh.akin⟩
  · unfold Meets
    rw [StateT.run_bind, StateT.run_bind, StateT.run_get, StateT.run_get, pure_bind, pure_bind, named]
    exact fresh.dispatchNamed _

end Giving

section Collecting

theorem akin_defineMacro (akin : Akin view here there) {parts : Prototype} (proper : parts.Proper)
    {body other : List String} (same : plainLines body = plainLines other) :
    Akin view ((defineMacro parts body).run here).2 ((defineMacro parts other).run there).2 := by
  have pass := akin.view_eq Context.pass fun _ => rfl
  have flags := akin.view_eq Context.list fun _ => rfl
  have redefined : (here.currentModule.macros[parts.name]?).any (·.pass = here.pass) =
      (there.currentModule.macros[parts.name]?).any (·.pass = there.pass) := by
    have current := akin.view_eq Context.moduleIndex fun _ => rfl
    have found : (here.currentModule.macros[parts.name]?).map MacroDefinition.plain =
        (there.currentModule.macros[parts.name]?).map MacroDefinition.plain := by
      refine (akin.macros here.moduleIndex parts.name).trans ?_
      rw [current]
      rfl
    have any (macro? : Option MacroDefinition) (pass : Pass) :
        (macro?.map MacroDefinition.plain).any (·.pass = pass) = macro?.any (·.pass = pass) :=
      Option.any_map
    rw [← any, found, any, pass]
  have entered {here there : Context} (akin : Akin view here there) : Akin view
      (here.modifyModule fun module => { module with
        macros := module.macros.insert parts.name (.make parts body there.pass) })
      (there.modifyModule fun module => { module with
        macros := module.macros.insert parts.name (.make parts other there.pass) }) := by
    refine akin.enterMacro parts.name ?_
    rw [← MacroDefinition.plain_make proper body, same, MacroDefinition.plain_make proper other]
  unfold Asm.defineMacro
  rw [StateT.run_bind, StateT.run_bind, StateT.run_get, StateT.run_get, pure_bind, pure_bind]
  dsimp only
  rw [redefined, flags, pass]
  split
  · exact entered ((likeness_akin view).warn _ _ _ akin).2
  · exact entered akin

theorem akin_capturePrototype (line : String) : Together (Akin view) (capturePrototype line) := by
  unfold capturePrototype
  split
  · exact .pure _
  split
  · exact .pure _
  · exact (likeness_akin view).fail _ _

theorem pending_capturePrototype (line : String) (context : Context) :
    ∀ next ∈ ((capturePrototype line).run context).1, next.Pending := by
  unfold capturePrototype
  split
  · rintro _ ⟨⟩
    trivial
  split
  case h_1 parts read =>
    rintro _ ⟨⟩
    exact Prototype.proper_ofStatement read
  case h_2 => exact fun _ member => nomatch member

/-- A line completes what is collected, if that has a prototype. -/
def completes (line : String) : Capture → Bool
  | .prototype => false
  | .definition parts _ => endsCapture line parts.name "ENDM"
  | .group name _ none _ => endsCapture line name "ENDDUP"
  | .group _ _ (some statements) body => statements ≤ (plainLines (body ++ [line])).length

/-- What is done with lines that are complete. The last of a given number of statements belongs to
them. -/
def complete (line : String) : Capture → AsmM Unit
  | .prototype => return ()
  | .definition parts body => defineMacro parts body
  | .group _ count none body => pushFrame .group (duplicated count body)
  | .group _ count (some _) body => pushFrame .group (duplicated count (body ++ [line]))

/-- One more line is collected. -/
def collect (line : String) : Capture → Capture
  | .prototype => .prototype
  | .definition parts body => .definition parts (body ++ [line])
  | .group name count statements body => .group name count statements (body ++ [line])

theorem captureInto_eq {capture : Capture} (begun : capture ≠ .prototype) (line : String) :
    captureInto capture line =
      if completes line capture then do complete line capture; return none
      else return some (collect line capture) := by
  match capture with
  | .prototype => exact absurd rfl begun
  | .definition .. => rfl
  | .group _ _ none _ => rfl
  | .group _ _ (some statements) body =>
    have counted : ((body ++ [line]).countP fun line => !Fields.isComment line.toList) =
        (plainLines (body ++ [line])).length := List.countP_eq_length_filter
    unfold captureInto completes
    simp only [counted, decide_eq_true_eq]
    rfl

theorem plain_collect {capture other : Capture} (alike : capture.Alike other) (line : String) :
    (collect line capture).plain = (collect line other).plain := by
  cases alike with
  | prototype => rfl
  | definition parts same =>
    refine congrArg (Capture.definition parts) ?_
    rw [plainLines_append, plainLines_append, same]
  | group name count statements same =>
    refine congrArg (Capture.group name count statements) ?_
    rw [plainLines_append, plainLines_append, same]

theorem completes_of_alike {capture other : Capture} (alike : capture.Alike other) (line : String) :
    completes line capture = completes line other := by
  cases alike with
  | prototype => rfl
  | definition parts same => rfl
  | group name count statements same =>
    cases statements with
    | none => rfl
    | some statements => simp only [completes, plainLines_append, same]

theorem pending_collect {capture : Capture} (pending : capture.Pending) {line : String}
    (open' : completes line capture = false) : (collect line capture).Pending := by
  match capture with
  | .prototype => trivial
  | .definition .. => exact pending
  | .group _ _ none _ => trivial
  | .group _ _ (some statements) body => exact Nat.not_le.mp (of_decide_eq_false open')

theorem Fresh.complete (fresh : Fresh view here there) {capture other : Capture}
    (alike : capture.Alike other) (pending : capture.Pending) (line : String) :
    Akin view ((Asm.complete line capture).run here).2 ((Asm.complete line other).run there).2 := by
  have writtenOut (count : Nat) {lines others : List String}
      (same : plainLines lines = plainLines others) :
      plainLines (duplicated count lines) = plainLines (duplicated count others) := by
    rw [duplicated_eq, duplicated_eq, plainLines_replicate, plainLines_replicate, same]
  cases alike with
  | prototype => exact fresh.akin
  | definition parts same => exact akin_defineMacro fresh.akin pending same
  | group name count statements same =>
    cases statements with
    | none => exact fresh.pushFrame .group (writtenOut count same)
    | some statements =>
      refine fresh.pushFrame .group (writtenOut count ?_)
      rw [plainLines_append, plainLines_append, same]

/-- A line is collected in both contexts. -/
theorem Fresh.captureLine (fresh : Fresh view here there) {capture other : Capture}
    (alike : capture.Alike other) (pending : capture.Pending) (line : String) :
    Akin view ((Asm.captureLine capture line).run here).2
      ((Asm.captureLine other line).run there).2 := by
  have run (capture : Capture) (context : Context) : ((Asm.captureLine capture line).run context).2 =
      { ((captureInto capture line).run context).2 with
        capture := ((captureInto capture line).run context).1 } := rfl
  rw [run, run]
  by_cases begun : capture = .prototype
  · subst begun
    cases alike
    obtain ⟨same, akin⟩ := akin_capturePrototype line here there fresh.akin
    exact akin.collect (congrArg (Option.map Capture.plain) same) (pending_capturePrototype line here)
  · have begun' : other ≠ .prototype := by
      rintro rfl
      cases alike
      exact begun rfl
    rw [captureInto_eq begun, captureInto_eq begun', ← completes_of_alike alike]
    split
    case isTrue =>
      exact (fresh.complete alike pending line).collect rfl fun _ member => nomatch member
    case isFalse more =>
      refine fresh.akin.collect (congrArg some (plain_collect alike line)) ?_
      rintro _ ⟨⟩
      exact pending_collect pending (Bool.eq_false_iff.mpr more)

/-- A comment is added to what is collected, and completes nothing. -/
theorem captureInto_comment {capture : Capture} (pending : capture.Pending) {line : String}
    (comment : Fields.isComment line.toList) :
    ∃ next : Capture, captureInto capture line = pure (some next) ∧ next.plain = capture.plain := by
  have ends (name result : String) : endsCapture line name result = false := by
    unfold endsCapture
    rw [comment]
    rfl
  have body (lines : List String) : plainLines (lines ++ [line]) = plainLines lines := by
    rw [plainLines_append, plainLines_comment comment]
    exact List.append_nil _
  by_cases begun : capture = .prototype
  · subst begun
    refine ⟨.prototype, ?_, rfl⟩
    unfold captureInto capturePrototype
    simp only [comment, Bool.true_or, if_true]
  · have more : completes line capture = false := by
      match capture with
      | .prototype => rfl
      | .definition .. => exact ends _ _
      | .group _ _ none _ => exact ends _ _
      | .group _ _ (some statements) lines =>
        simp only [completes, body]
        exact decide_eq_false (Nat.not_le.mpr pending)
    refine ⟨collect line capture, ?_, ?_⟩
    · rw [captureInto_eq begun, more]
      rfl
    · cases capture with
      | prototype => rfl
      | definition parts lines => exact congrArg (Capture.definition parts) (body lines)
      | group name count statements lines =>
        exact congrArg (Capture.group name count statements) (body lines)

end Collecting

section Lines

theorem Fresh.warn (fresh : Fresh view here there) (kind : WarningKind) :
    Meets (Fresh view) (warn kind) here there :=
  ⟨rfl, ((likeness_akin view).warn kind _ _ fresh.akin).2, fresh.here_keep, fresh.there_keep⟩

theorem Fresh.skipping (fresh : Fresh view here there) (fields : Fields) :
    Meets (Fresh view) (skipping fields) here there := by
  have skip := fresh.akin.view_eq Context.skip fun _ => rfl
  change (passOver fields here.skip).1 = (passOver fields there.skip).1 ∧
    Fresh view { here with skip := (passOver fields here.skip).2 }
      { there with skip := (passOver fields there.skip).2 }
  rw [skip]
  exact ⟨rfl, ((likeness_akin view).setSkip _ _ _ fresh.akin).2, fresh.here_keep, fresh.there_keep⟩

theorem assembleOutside_plain (context : Context) (line : String) :
    assembleOutside (context.plain view) line = assembleOutside context line := by
  have micros : (context.plain view).findMicro? = context.findMicro? :=
    funext context.findMicro?_plain
  unfold assembleOutside
  rw [micros]
  rfl

theorem Fresh.assembleOutside (fresh : Fresh view here there) (context : Context) (line : String) :
    Meets (Akin view) (assembleOutside context line) here there := by
  have rest (edited : Micro.Substituted) (here there : Context) (fresh : Fresh view here there) :
      Meets (Akin view) (do
        if !(← Asm.skipping (fieldsOf context edited.text)) then
          Asm.dispatch (fieldsOf context edited.text)
        return if edited.changed then some edited.text else none) here there := by
    refine (fresh.skipping _).andThen fun skipped here there fresh => ?_
    cases skipped with
    | true => exact ⟨rfl, fresh.akin⟩
    | false => exact (fresh.dispatch _).andThen fun _ _ _ akin => ⟨rfl, akin⟩
  unfold Asm.assembleOutside
  split
  · exact ⟨rfl, fresh.akin⟩
  dsimp only
  split
  · exact (fresh.warn _).andThen fun _ => rest _
  · exact rest _ here there fresh

theorem Fresh.assembleLine (fresh : Fresh view here there) (line : String) :
    Meets (Akin view) (assembleLine line) here there := by
  have captures := fresh.akin.capture
  cases inHere : here.capture with
  | none =>
    cases inThere : there.capture with
    | none =>
      have same := fresh.akin.view_eq (Asm.assembleOutside · line) (assembleOutside_plain · line)
      unfold Meets
      rw [run_assembleLine_none inHere, run_assembleLine_none inThere, same]
      exact fresh.assembleOutside there line
    | some other =>
      rw [inHere, inThere] at captures
      nomatch captures
  | some capture =>
    cases inThere : there.capture with
    | none =>
      rw [inHere, inThere] at captures
      nomatch captures
    | some other =>
      rw [inHere, inThere] at captures
      unfold Meets
      rw [run_assembleLine_some inHere, run_assembleLine_some inThere]
      have alike := Capture.alike_of_plain (Option.some.inj captures)
      exact ⟨rfl, fresh.captureLine alike (fresh.akin.pending capture inHere) line⟩

/-- A statement does the same in both contexts. -/
theorem rests_assembleStatement (counts : Counts view) (rests : Rests view here there)
    (number number' : LineNumber) (text : String) (origin origin' : Option FrameKind)
    (truncated : Bool) :
    ((assembleStatement number text origin truncated true).run here).1.plain =
      ((assembleStatement number' text origin' truncated true).run there).1.plain ∧
    Rests view ((assembleStatement number text origin truncated true).run here).2
      ((assembleStatement number' text origin' truncated true).run there).2 := by
  have begun : Fresh view { here with statement := { line := number } }
      { there with statement := { line := number' } } :=
    ⟨Akin.state rests rfl, rfl, rfl⟩
  have body : (((assembleBody number text truncated).run here).1 =
      ((assembleBody number' text truncated).run there).1) ∧
      Akin view ((assembleBody number text truncated).run here).2
        ((assembleBody number' text truncated).run there).2 := by
    cases truncated with
    | true => exact (begun.warn .truncation).andThen fun _ _ _ fresh => fresh.assembleLine text
    | false => exact begun.assembleLine text
  rw [run_assembleStatement, run_assembleStatement]
  dsimp only [if_true]
  obtain ⟨-, akin⟩ := body
  generalize (assembleBody number text truncated).run here = one at akin ⊢
  generalize (assembleBody number' text truncated).run there = two at akin ⊢
  refine ⟨?_, ?_⟩
  · rw [if_pos rfl, if_pos rfl, finishStatement_change, finishStatement_change]
    exact congrArg StatementState.frameChange akin.statement
  · rw [if_pos rfl, if_pos rfl]
    obtain ⟨listing, finished⟩ := finishStatement_eq text one.1 origin one.2
    obtain ⟨listing', finished'⟩ := finishStatement_eq text two.1 origin' two.2
    rw [finished, finished']
    exact (akin.finished counts text).rest.listed listing listing'

theorem assembleLine_comment (context : Context)
    (pending : ∀ capture ∈ context.capture, capture.Pending) {text : String}
    (comment : Fields.isComment text.toList) :
    ∃ next : Option Capture,
      (assembleLine text).run context = (none, { context with capture := next }) ∧
        context.capture.map Capture.plain = next.map Capture.plain := by
  cases inside : context.capture with
  | none =>
    refine ⟨none, ?_, rfl⟩
    rw [run_assembleLine_none inside]
    unfold assembleOutside
    rw [if_pos comment, ← inside]
    rfl
  | some capture =>
    obtain ⟨next, into, same⟩ := captureInto_comment (pending capture inside) comment
    refine ⟨some next, ?_, congrArg some same.symm⟩
    rw [run_assembleLine_some inside]
    unfold captureLine
    rw [into]
    rfl

/-- A statement that nothing was noticed of is only listed. -/
theorem finishStatement_silent (counts : Counts view) (context : Context) {number : LineNumber}
    (silent : context.statement = { line := number })
    (pending : ∀ capture ∈ context.capture, capture.Pending) (text : String) (edited : Option String)
    (origin : Option FrameKind) :
    ∃ after, (finishStatement text edited origin).run context = (.keep, after) ∧
      Rests view context after := by
  obtain ⟨listing, finished⟩ := finishStatement_eq text edited origin context
  refine ⟨((finishStatement text edited origin).run context).2, Prod.ext ?_ rfl, ?_⟩
  · rw [finishStatement_change, silent]
  · have quiet : context.finished text =
        if context.pass = .two then context.rest.counted number text .empty else context.rest := by
      unfold Context.finished
      rw [silent]
      rfl
    have unchanged : Akin view context.rest context.rest := .refl pending
    rw [finished, quiet]
    split
    · exact (unchanged.uncounted counts number text).listed _ _
    · exact unchanged.listed _ _

/-- A comment does nothing but be listed, and be added to what is collected. -/
theorem assembleStatement_comment (counts : Counts view) {context : Context}
    (pending : ∀ capture ∈ context.capture, capture.Pending) (number : LineNumber) {text : String}
    (comment : Fields.isComment text.toList) (origin : Option FrameKind) :
    ∃ after, (assembleStatement number text origin false true).run context = (.keep, after) ∧
      Rests view context after := by
  obtain ⟨next, line, same⟩ :=
    assembleLine_comment { context with statement := { line := number } } pending comment
  have body : (assembleBody number text false).run context =
      (none, { context with statement := { line := number }, capture := next }) := line
  have unchanged : Akin view context.rest context.rest := .refl pending
  have collected : Akin view context.rest { context.rest with capture := next } :=
    unchanged.collect same pending
  rw [run_assembleStatement, body]
  obtain ⟨after, finished, rests⟩ := finishStatement_silent counts
    { context with statement := { line := number }, capture := next } rfl collected.symm.pending text
    none origin
  exact ⟨after, finished, collected.trans rests⟩

end Lines

end Asm

end CrayAssembler
