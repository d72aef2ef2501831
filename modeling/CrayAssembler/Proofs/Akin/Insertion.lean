import CrayAssembler.Assembly.Basic
import CrayAssembler.Proofs.Akin.Frames
import CrayAssembler.Proofs.Assembly.Passes
import CrayAssembler.Proofs.Symbol.Externals

namespace CrayAssembler

namespace Module

theorem bare_declareImplicitExternals (module : Module) :
    module.declareImplicitExternals.bare = module.bare.declareImplicitExternals := by
  unfold declareImplicitExternals
  refine (List.foldl_hom bare fun module key => ?_).symm
  dsimp only
  rw [apply_ite bare]
  refine ite_congr rfl (fun _ => rfl) fun _ => ?_
  have same : module.bare.symbols.makeExternal key (module.bare.externalIndex key) =
      module.symbols.makeExternal key (module.externalIndex key) := rfl
  rw [same, ← bare_addExternal]
  cases module.symbols.makeExternal key (module.externalIndex key) <;> rfl

theorem macros_declareImplicitExternals (module : Module) :
    module.declareImplicitExternals.macros = module.macros := by
  refine declareImplicitExternals_induction (P := fun later => later.macros = module.macros) rfl ?_
  intro later key symbols kept made
  exact (macros_addExternal later key).trans kept

theorem bare_prepared (module : Module) (implicitExternals : Bool) :
    (if implicitExternals then module.declareImplicitExternals else module).preparePassTwo.bare =
      (if implicitExternals then module.bare.declareImplicitExternals
        else module.bare).preparePassTwo := by
  cases implicitExternals with
  | true =>
    rw [if_pos rfl, if_pos rfl, ← bare_declareImplicitExternals]
    rfl
  | false => rfl

end Module

namespace Context

/-- The diagnostics of closing the anonymous module are counted and reported. -/
def signedOff (context : Context) (line : LineNumber) : Context :=
  let diagnostics := context.statement.diagnostics
  if context.pass = .two && !diagnostics.isEmpty then
    { context.silenced with
      tally := context.tally.add diagnostics
      reports := context.reports.push ⟨line, "", diagnostics.toList⟩ }
  else context.silenced

end Context

namespace Akin

variable {view : Tally → Tally} {here there : Context}

theorem signedOff (counts : Counts view) (akin : Akin view here there)
    (number number' : LineNumber) :
    Akin view (here.signedOff number) (there.signedOff number') := by
  have pass : here.pass = there.pass := akin.view_eq Context.pass fun _ => rfl
  have silenced : Akin view here.silenced there.silenced :=
    akin.state (congrArg (fun statement : StatementState =>
      { statement with diagnostics := .empty }) akin.statement :)
  by_cases drawn : (there.pass = .two && !there.statement.diagnostics.isEmpty) = true
  · have drawn' : (here.pass = .two && !here.statement.diagnostics.isEmpty) = true := by
      rwa [pass, akin.diagnostics]
    unfold Context.signedOff
    dsimp only
    rw [if_pos drawn, if_pos drawn', akin.diagnostics]
    exact silenced.reported counts _ (akin.push_report number number' "" _)
  · have drawn' : ¬(here.pass = .two && !here.statement.diagnostics.isEmpty) = true := by
      rwa [pass, akin.diagnostics]
    unfold Context.signedOff
    dsimp only
    rw [if_neg drawn, if_neg drawn']
    exact silenced

end Akin

namespace Asm

section Containing

def containLine (line : SourceLine) : ExceptT Disturbance AsmM Unit := do
  let change ← assembleStatement line.number line.text none line.truncated true
  Frame.runAfter contain change

def containPass (lines : List SourceLine) (pass : Pass) : ExceptT Disturbance AsmM Unit := do
  modify fun context => context.startPass pass
  lines.forM containLine
  finishPass ((lines.getLast?.map (·.number + 1)).getD 1)

/-- Both passes, as long as there is room for all frames. -/
def containPasses (lines : List SourceLine) : ExceptT Disturbance AsmM Unit := do
  containPass lines .one
  modify betweenPasses
  containPass lines .two

theorem mirrors_containLine (line : SourceLine) :
    Mirrors (containLine line) (assembleSourceLine line) := by
  refine (Mirrors.lift _).bind fun change => ?_
  rw [Frame.runAfter_eq, Frame.runAfter_eq]
  cases change with
  | keep => exact .pure _
  | clear => exact .pure _
  | push frame => exact (mirrors_run _ frame).bind fun _ => .pure _

theorem mirrors_containPass (lines : List SourceLine) (pass : Pass) :
    Mirrors (containPass lines pass) (runPass lines pass) := by
  refine (Mirrors.lift _).bind fun _ => ?_
  exact (Mirrors.forM mirrors_containLine).bind fun _ => .lift _

theorem mirrors_containPasses (lines : List SourceLine) :
    Mirrors (containPasses lines) (runPasses lines) := by
  refine (mirrors_containPass lines .one).bind fun _ => ?_
  exact (Mirrors.lift _).bind fun _ => mirrors_containPass lines .two

end Containing

section Passes

variable {view : Tally → Tally} {here there : Context}

theorem rests_startPass (rests : Rests view here there) (pass : Pass) :
    Rests view (here.startPass pass) (there.startPass pass) :=
  ⟨congrArg (·.startPass pass) rests.plain, rests.macros, fun _ member => nomatch member⟩

theorem run_closeAnonymousModule (context : Context) (line : LineNumber) :
    ((closeAnonymousModule line).run context).2 = (closeModule.run
      { context with moduleIndex := Context.anonymousModule, statement := { line } }).2.signedOff
        line := by
  have rest (closed : Context) : ((do
      let context ← get
      let diagnostics := context.statement.diagnostics
      modifyStatement fun statement => { statement with diagnostics := .empty }
      if context.pass = .two && !diagnostics.isEmpty then
        modify fun context =>
          { context with
            tally := context.tally.add diagnostics
            reports := context.reports.push ⟨line, "", diagnostics.toList⟩ } : AsmM Unit).run
        closed).2 = closed.signedOff line := by
    unfold Context.signedOff
    rw [StateT.run_bind, StateT.run_get, pure_bind]
    dsimp only
    split <;> rfl
  exact rest _

theorem rests_closeAnonymousModule (counts : Counts view) (rests : Rests view here there)
    (number number' : LineNumber) :
    Rests view ((closeAnonymousModule number).run here).2
      ((closeAnonymousModule number').run there).2 := by
  have entered : Akin view { here.rest with moduleIndex := Context.anonymousModule }
      { there.rest with moduleIndex := Context.anonymousModule } :=
    ⟨congrArg (fun context : Context => { context with moduleIndex := Context.anonymousModule })
      rests.plain, rests.macros, rests.pending⟩
  have begun : Akin view
      { here with moduleIndex := Context.anonymousModule, statement := { line := number } }
      { there with moduleIndex := Context.anonymousModule, statement := { line := number' } } :=
    entered.state rfl
  rw [run_closeAnonymousModule, run_closeAnonymousModule]
  exact (((likeness_akin view).closeModule _ _ begun).2.signedOff counts number number').rest

theorem run_finishPass (context : Context) (line : LineNumber) :
    ((finishPass line).run context).2 = ((closeAnonymousModule line).run
      (if context.moduleIndex ≠ Context.anonymousModule then
        ((assembleStatement line implicitEnd none false true).run
          { context with capture := none, skip := none }).2
      else { context with capture := none })).2 := by
  unfold finishPass
  generalize assembleStatement line implicitEnd none false true = ending
  generalize closeAnonymousModule line = closing
  rw [StateT.run_bind, StateT.run_modify, pure_bind, StateT.run_bind, StateT.run_get, pure_bind]
  dsimp only
  split <;> rfl

theorem rests_finishPass (counts : Counts view) (rests : Rests view here there)
    (number number' : LineNumber) :
    Rests view ((finishPass number).run here).2 ((finishPass number').run there).2 := by
  have current : here.moduleIndex = there.moduleIndex :=
    Akin.view_eq rests Context.moduleIndex fun _ => rfl
  have collected : Rests view { here with capture := none } { there with capture := none } :=
    Akin.collect rests rfl fun _ member => nomatch member
  have unskipped : Rests view { here with capture := none, skip := none }
      { there with capture := none, skip := none } :=
    ((likeness_akin view).setSkip none _ _ collected).2
  have ended := (rests_assembleStatement counts unskipped number number' implicitEnd none none false).2
  rw [run_finishPass, run_finishPass]
  by_cases outside : there.moduleIndex ≠ Context.anonymousModule
  · rw [if_pos outside, if_pos (current ▸ outside)]
    exact rests_closeAnonymousModule counts ended number number'
  · rw [if_neg outside, if_neg (current ▸ outside)]
    exact rests_closeAnonymousModule counts collected number number'

theorem plain_betweenPasses (context : Context) :
    (betweenPasses context).plain view = betweenPasses (context.plain view) := by
  have modules : (betweenPasses context).modules.map Module.bare =
      (betweenPasses (context.plain view)).modules := by
    change (context.modules.map _).map _ = (context.modules.map _).map _
    rw [List.map_map, List.map_map]
    exact List.map_congr_left fun module _ => module.bare_prepared context.settings.implicitExternals
  exact congrArg (fun modules => { context.plain view with modules }) modules

theorem macroAt_betweenPasses (context : Context) (index : Nat) (name : String) :
    (betweenPasses context).macroAt index name = context.macroAt index name := by
  unfold Context.macroAt Context.moduleAt betweenPasses
  dsimp only
  rw [List.getD_eq_getElem?_getD, List.getD_eq_getElem?_getD, List.getElem?_map]
  cases context.modules[index]? with
  | none => rfl
  | some module =>
    dsimp only [Option.map_some, Option.getD_some, Module.preparePassTwo]
    split
    · rw [Module.macros_declareImplicitExternals]
    · rfl

/-- Modules are prepared for the second pass alike. -/
theorem rests_betweenPasses (rests : Rests view here there) :
    Rests view (betweenPasses here) (betweenPasses there) where
  plain := by
    change (betweenPasses here.rest).plain view = (betweenPasses there.rest).plain view
    rw [plain_betweenPasses, rests.plain, plain_betweenPasses]
  macros index name := by
    change (betweenPasses here.rest).macroAt index name = (betweenPasses there.rest).macroAt index name
    rw [macroAt_betweenPasses, rests.macros, macroAt_betweenPasses]
  pending := rests.pending

end Passes

section Sources

variable {view : Tally → Tally}

theorem parallel_containLine (counts : Counts view) {line other : SourceLine}
    (text : line.text = other.text) (truncated : line.truncated = other.truncated) :
    Parallel (Rests view) (containLine line) (containLine other) (· = ·) := by
  have assembled : Parallel (Rests view)
      (liftM (assembleStatement line.number line.text none line.truncated true))
      (liftM (assembleStatement other.number other.text none other.truncated true))
      fun change change' => change.plain = change'.plain := by
    rw [text, truncated]
    exact .lift fun here there rests => rests_assembleStatement counts rests _ _ _ _ _ _
  refine assembled.bind fun change change' same => ?_
  rw [Frame.runAfter_eq, Frame.runAfter_eq]
  exact (parallel_follow (fun _ _ => parallel_run counts _) (run_contain_nil _) same).bind
    fun _ _ _ => .pure rfl

/-- A comment of the source. -/
theorem containLine_comment (counts : Counts view) (number : LineNumber) {raw : List Char}
    (comment : Fields.isComment raw) (short : raw.length ≤ SourceLine.maxLength) {context : Context}
    (pending : ∀ capture ∈ context.capture, capture.Pending) :
    ∃ after, (containLine (.make number raw)).run.run context = (.ok (), after) ∧
      Rests view context after := by
  obtain ⟨inert, whole⟩ := SourceLine.make_comment number comment short
  obtain ⟨after, assembled, rests⟩ :=
    assembleStatement_comment counts pending (SourceLine.make number raw).number inert none
  refine ⟨after, ?_, rests⟩
  unfold containLine
  rw [ExceptT.run_bind, StateT.run_bind, run_lift, whole, assembled]
  rfl

theorem parallel_lines (counts : Counts view) {lines others : List SourceLine}
    (commented : Commented lines others) :
    Parallel (Rests view) (lines.forM containLine) (others.forM containLine) (· = ·) := by
  -- Only the second program steps at a comment of its own.
  induction commented with
  | nil => exact .pure rfl
  | line text truncated _ ih => exact (parallel_containLine counts text truncated).bind fun _ _ _ => ih
  | comment number comment short _ ih =>
    refine .right () (fun here there rests => ?_) ih
    obtain ⟨after, ran, quiet⟩ := containLine_comment counts number comment short rests.symm.pending
    exact ⟨after, ran, rests.trans quiet⟩

theorem parallel_containPass (counts : Counts view) {lines others : List SourceLine}
    (commented : Commented lines others) (pass : Pass) :
    Parallel (Rests view) (containPass lines pass) (containPass others pass) (· = ·) := by
  have started : Parallel (Rests view)
      (liftM (modify fun context => context.startPass pass : AsmM PUnit))
      (liftM (modify fun context => context.startPass pass : AsmM PUnit)) (· = ·) :=
    .lift fun here there rests => ⟨rfl, rests_startPass rests pass⟩
  refine started.bind fun _ _ _ => ?_
  refine (parallel_lines counts commented).bind fun _ _ _ => ?_
  exact .lift fun here there rests => ⟨Subsingleton.elim _ _, rests_finishPass counts rests _ _⟩

theorem parallel_containPasses (counts : Counts view) {lines others : List SourceLine}
    (commented : Commented lines others) :
    Parallel (Rests view) (containPasses lines) (containPasses others) (· = ·) := by
  have between : Parallel (Rests view) (liftM (modify betweenPasses : AsmM PUnit))
      (liftM (modify betweenPasses : AsmM PUnit)) (· = ·) :=
    .lift fun here there rests => ⟨rfl, rests_betweenPasses rests⟩
  refine (parallel_containPass counts commented .one).bind fun _ _ _ => ?_
  exact between.bind fun _ _ _ => parallel_containPass counts commented .two

end Sources

end Asm

section Counting

theorem DiagnosticSet.contains_union (set other : DiagnosticSet) (diagnostic : Diagnostic) :
    (set.union other).contains diagnostic = (set.contains diagnostic || other.contains diagnostic) := by
  rw [Bool.eq_iff_iff]
  unfold union
  simp only [contains, List.contains_iff_mem, List.mem_filter, diagnostic.mem_all, true_and]

/-- Counts, with the diagnostics that were seen in the order in which they are listed. -/
def Tally.ordered (tally : Tally) : Tally :=
  { tally with seen := tally.seen.union .empty }

theorem Tally.contains_ordered (tally : Tally) (diagnostic : Diagnostic) :
    tally.ordered.seen.contains diagnostic = tally.seen.contains diagnostic :=
  (DiagnosticSet.contains_union ..).trans (Bool.or_false _)

theorem counts_ordered : Counts Tally.ordered where
  add {tally other} diagnostics same := by
    have errors : tally.errors = other.errors := (congrArg Tally.errors same :)
    have warnings : tally.warnings = other.warnings := (congrArg Tally.warnings same :)
    have seen (diagnostic : Diagnostic) :
        tally.seen.contains diagnostic = other.seen.contains diagnostic := by
      rw [← tally.contains_ordered, same, other.contains_ordered]
    have union : tally.seen.union diagnostics = other.seen.union diagnostics := by
      unfold DiagnosticSet.union
      simp only [seen]
    unfold Tally.ordered Tally.add
    rw [errors, warnings, union]
  empty tally := by
    have twice : (tally.seen.union .empty).union .empty = tally.seen.union .empty := by
      unfold DiagnosticSet.union
      rw [DiagnosticSet.mk.injEq]
      refine List.filter_congr fun diagnostic _ => ?_
      exact congrArg (· || _) ((DiagnosticSet.contains_union ..).trans (Bool.or_false _))
    exact congrArg (fun seen => { tally with seen }) twice

end Counting

namespace Assembly

variable {lines others : List SourceLine} {name : String} {settings : Settings} {clock : Clock}

/-- In neither pass is there a frame that there is no room for. -/
def Contained (lines : List SourceLine) (name : String) (settings : Settings) (clock : Clock) : Prop :=
  ((Asm.containPasses lines).run.run (.initial settings clock name)).1.isOk

instance : Decidable (Contained lines name settings clock) :=
  inferInstanceAs (Decidable (_ = _))

/-- As long as there is room, the passes end in the context that the assembly ends with. -/
theorem Contained.run (contained : Contained lines name settings clock) :
    (Asm.containPasses lines).run.run (.initial settings clock name) =
      (.ok (), finalContext lines name settings clock) := by
  unfold Contained at contained
  cases ran : (Asm.containPasses lines).run.run (.initial settings clock name) with
  | mk outcome after =>
    cases outcome with
    | error reason =>
      rw [ran] at contained
      nomatch contained
    | ok _ =>
      have free := Asm.mirrors_containPasses lines _ _ _ ran
      unfold finalContext
      rw [free]

theorem rests_finalContext (commented : Commented lines others)
    (contained : Contained lines name settings clock)
    (contained' : Contained others name settings clock) :
    Rests Tally.ordered (finalContext lines name settings clock)
      (finalContext others name settings clock) := by
  -- What was seen is kept as a list, so counting nothing need not leave the list as it is.
  have start : Rests Tally.ordered (.initial settings clock name) (.initial settings clock name) :=
    .refl fun _ member => nomatch member
  exact (Asm.parallel_containPasses counts_ordered commented _ _ _ _ _ _ start contained.run
    contained'.run).2

/-- Comments make no difference to the object modules and to what is counted and reported, but for the
numbers of lines. -/
theorem ofLines_commented (commented : Commented lines others)
    (contained : Contained lines name settings clock)
    (contained' : Contained others name settings clock) :
    let plain := ofLines lines name settings clock
    let assembly := ofLines others name settings clock
    assembly.objects = plain.objects ∧
      assembly.tally.errors = plain.tally.errors ∧
      assembly.tally.warnings = plain.tally.warnings ∧
      (∀ diagnostic, assembly.tally.seen.contains diagnostic = plain.tally.seen.contains diagnostic) ∧
      assembly.reports.map Report.plain = plain.reports.map Report.plain := by
  have same := (rests_finalContext commented contained contained').plain.symm
  have final (lines : List SourceLine) : ofLines lines name settings clock =
      let context := finalContext lines name settings clock
      ⟨context.objects.toList, context.tally,
        Listing.render context.listing.toList ++ Listing.summary context.tally,
        context.reports.toList⟩ := rfl
  rw [final, final]
  generalize finalContext lines name settings clock = here at same
  generalize finalContext others name settings clock = there at same
  have objects : there.objects = here.objects := (congrArg Context.objects same :)
  have tally : there.tally.ordered = here.tally.ordered := (congrArg Context.tally same :)
  have reports : there.reports.map Report.plain = here.reports.map Report.plain :=
    (congrArg Context.reports same :)
  refine ⟨congrArg Array.toList objects, (congrArg Tally.errors tally :),
    (congrArg Tally.warnings tally :), fun diagnostic => ?_, ?_⟩
  · dsimp only
    rw [← there.tally.contains_ordered, tally, here.tally.contains_ordered]
  · dsimp only
    rw [← Array.toList_map, reports, Array.toList_map]

/-- A macro, a group that calls it, and a statement that is skipped. -/
def tidyLines : List SourceLine :=
  [⟨1, "  MACRO", false⟩, ⟨2, "  PUT N", false⟩, ⟨3, "  CON N", false⟩, ⟨4, "PUT ENDM", false⟩,
    ⟨5, "  DUP 2,1", false⟩, ⟨6, "  PUT 7", false⟩, ⟨7, "  SKIP 1", false⟩,
    ⟨8, "  CON 9", false⟩, ⟨9, "  CON X", false⟩]

/-- The same with comments in the macro, in the group and among what is skipped. -/
def annotatedLines : List SourceLine :=
  [⟨1, "  MACRO", false⟩, .make 2 "* PUT".toList, ⟨3, "  PUT N", false⟩, .make 4 "  * N".toList,
    ⟨5, "  CON N", false⟩, ⟨6, "PUT ENDM", false⟩, ⟨7, "  DUP 2,1", false⟩, .make 8 "* 7".toList,
    ⟨9, "  PUT 7", false⟩, ⟨10, "  SKIP 1", false⟩, .make 11 "*".toList, ⟨12, "  CON 9", false⟩,
    ⟨13, "  CON X", false⟩]

theorem ofLines_commented_annotated :
    Commented tidyLines annotatedLines ∧ Contained tidyLines "MAIN" {} ⟨"", "", ""⟩ ∧
      Contained annotatedLines "MAIN" {} ⟨"", "", ""⟩ ∧
      (ofLines tidyLines "MAIN" {} ⟨"", "", ""⟩).tally.errors = 1 ∧
      (ofLines annotatedLines "MAIN" {} ⟨"", "", ""⟩).tally.errors =
        (ofLines tidyLines "MAIN" {} ⟨"", "", ""⟩).tally.errors ∧
      (ofLines annotatedLines "MAIN" {} ⟨"", "", ""⟩).objects =
        (ofLines tidyLines "MAIN" {} ⟨"", "", ""⟩).objects := by
  have commented : Commented tidyLines annotatedLines := by
    refine .line rfl rfl (.comment 2 (by decide) (by decide) ?_)
    refine .line rfl rfl (.comment 4 (by decide) (by decide) ?_)
    refine .line rfl rfl (.line rfl rfl (.line rfl rfl (.comment 8 (by decide) (by decide) ?_)))
    refine .line rfl rfl (.line rfl rfl (.comment 11 (by decide) (by decide) ?_))
    exact .line rfl rfl (.line rfl rfl .nil)
  have contained : Contained tidyLines "MAIN" {} ⟨"", "", ""⟩ := by decide +kernel
  have contained' : Contained annotatedLines "MAIN" {} ⟨"", "", ""⟩ := by decide +kernel
  obtain ⟨objects, errors, -⟩ := ofLines_commented commented contained contained'
  exact ⟨commented, contained, contained', by decide +kernel, errors, objects⟩

end Assembly

end CrayAssembler
