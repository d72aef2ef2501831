import CrayAssembler.Proofs.Assembly.Statements

namespace CrayAssembler

/-- Nothing has been noticed of the current statement. -/
def Context.silenced (context : Context) : Context :=
  { context with statement := { context.statement with diagnostics := .empty } }

namespace Asm

/-- No step changes the pass. -/
theorem Step.pass {context after : Context} (step : Step context after) :
    after.pass = context.pass := by
  cases step with
  | emit width bits => exact (steady_emitBits context width bits).pass
  | emitReference kind fieldLength value parcel width bits =>
    exact ((steady_recordReference context kind fieldLength value parcel).trans
      (steady_emitBits _ width bits)).pass
  | _ => rfl

theorem Steps.pass {before after : Context} (steps : Steps before after) :
    after.pass = before.pass := by
  induction steps with
  | refl => rfl
  | tail _ step ih => exact step.pass.trans ih

/-- A pass that began at `start` is being ended: all is sound, but for the current section. -/
structure Ending (start context : Context) : Prop where
  sound : Context.Sound { context with sectionId := .make nominalSection }
  ahead : start.Ahead context
  pass : context.pass = start.pass

section Endings

variable {start context : Context}

theorem Ending.step {after : Context} (ending : Ending start context)
    (step : Step { context with sectionId := .make nominalSection }
      { after with sectionId := .make nominalSection }) : Ending start after := by
  have leads := step.leads ending.sound
  exact ⟨leads.1, ending.ahead.trans leads.2, step.pass.trans ending.pass⟩

theorem closable_ending : Closable (Ending start) where
  aside _ _ ending := ending.step (.aside ..)
  placeLiterals ending := ending.step .placeLiterals
  produce second ending := ending.step (.produce second)

/-- The anonymous module is made current, wherever the pass has ended. -/
theorem Follows.ending (follows : Follows start context) (sound : start.Sound)
    (statement : StatementState) :
    Ending start { context with moduleIndex := Context.anonymousModule, statement } := by
  have closed := leads_enter follows.sound
    (Nat.lt_of_le_of_lt (Nat.zero_le _) follows.sound.current_lt) context.modulesOpened
  have ahead := (follows.steps.leads sound).2
  refine ⟨?_, ahead.trans (.of_modules rfl), follows.steps.pass⟩
  exact ⟨closed.1.modules, closed.1.current_lt, closed.1.sections_lt, closed.1.objects,
    closed.1.unfinished⟩

theorem takes_closeAnonymousModule {P Q : Context → Prop} (line : LineNumber)
    (entered : ∀ context, P context →
      Q { context with moduleIndex := Context.anonymousModule, statement := { line } })
    (closable : Closable Q)
    (counted : ∀ {context : Context} (tally : Tally) (reports : Array Report), Q context →
      Q { context with tally, reports }) :
    Takes P (closeAnonymousModule line) Q := by
  have cleared : Keeps Q
      (modifyStatement fun statement => { statement with diagnostics := .empty }) :=
    .modify fun context holds => closable.aside context.listing .cleared holds
  have reported : ∀ (tally : Context → Tally) report, Keeps Q (modify fun context =>
      { context with tally := tally context, reports := context.reports.push report } :
        AsmM PUnit) := fun _ _ =>
    .modify fun _ holds => counted _ _ holds
  have begun : Takes P (modify fun context =>
      { context with moduleIndex := Context.anonymousModule, statement := { line } } : AsmM PUnit)
      Q := entered
  refine begun.bind fun _ => Keeps.takes (closable.closeModule.bind fun _ => ?_)
  refine Gives.bindGet fun context _ => ?_
  refine cleared.bind fun _ => ?_
  split
  · exact reported _ _
  · exact .pure trivial

/-- What is true after a pass follows from what is true of all contexts of the pass and survives the
closing of the anonymous module. -/
theorem takes_finishPass {Q : Context → Prop} (line : LineNumber)
    (closing : Takes (Follows start) (closeAnonymousModule line) Q) :
    Takes (Follows start) (finishPass line) Q :=
  assembles_follows.finishPass line closing

theorem follows_lines (lines : List SourceLine) :
    Keeps (Follows start) (lines.forM assembleSourceLine) :=
  assembles_follows.lines lines

/-- Lines are assembled in two parts. -/
theorem forM_take_drop (lines : List SourceLine) (count : Nat) :
    lines.forM assembleSourceLine = (do
      (lines.take count).forM assembleSourceLine
      (lines.drop count).forM assembleSourceLine) := by
  conv => lhs; rw [← List.take_append_drop count lines]
  exact List.forM_append

theorem ending_finishPass (line : LineNumber) (sound : start.Sound) :
    Takes (Follows start) (finishPass line) (Ending start) :=
  takes_finishPass line (takes_closeAnonymousModule line
    (fun _ follows => follows.ending sound { line }) closable_ending
    fun _ _ ending => ending.step (.aside ..))

/-- Between the passes everything starts again, and is sound once more. -/
theorem sound_betweenPasses (ending : Ending start context) (first : start.pass = .one) :
    ((betweenPasses context).startPass .two).Sound := by
  have none : context.objects = #[] := ending.sound.unfinished (ending.pass.trans first)
  have prepared : ∀ module ∈ (betweenPasses context).modules, module.Sound := by
    intro module member
    obtain ⟨old, inside, rfl⟩ := List.mem_map.mp member
    have sound := ending.sound.modules old inside
    refine Module.Sound.preparePassTwo ?_
    split
    · exact sound.declareImplicitExternals
    · exact sound
  have length : (betweenPasses context).modules.length = context.modules.length :=
    List.length_map ..
  have known : Context.anonymousModule < (betweenPasses context).modules.length := by
    rw [length]
    exact Nat.lt_of_le_of_lt (Nat.zero_le _) ending.sound.current_lt
  refine ⟨prepared, known, ?_, ?_, nofun⟩
  · intro id member
    rw [List.mem_singleton.mp member]
    have current := @Context.modules_of_current ((betweenPasses context).startPass .two) known
    exact Nat.lt_of_le_of_lt (Nat.zero_le _)
      (prepared _ (List.mem_of_getElem? current)).literals_lt
  · intro object member
    rw [show ((betweenPasses context).startPass .two).objects = #[] from none] at member
    nomatch member

end Endings

/-- Contexts that come up while statements are assembled. Between a statement and the next there are
those that its steps lead to. -/
inductive Reached : Context → Prop
  | start (settings : Settings) (clock : Clock) (name : String) :
      Reached ((Context.initial settings clock name).startPass .one)
  | step {context after : Context} : Reached context → Step context after → Reached after
  | statement {context : Context} (number : LineNumber) (text : String)
      (origin : Option FrameKind) (truncated mayNest : Bool) : Reached context →
      Reached ((assembleStatement number text origin truncated mayNest).run context).2
  | passTwo {context : Context} (line : LineNumber) : Reached context → context.pass = .one →
      Reached ((betweenPasses ((finishPass line).run context).2).startPass .two)

theorem sound_initial (settings : Settings) (clock : Clock) (name : String) :
    ((Context.initial settings clock name).startPass .one).Sound where
  modules := by
    intro module member
    rw [List.mem_singleton.mp member]
    exact Module.sound_make name
  current_lt := Nat.one_pos
  sections_lt := by
    intro id member
    rw [List.mem_singleton.mp member]
    exact Nat.two_pos
  objects := by
    intro object member
    nomatch member
  unfinished _ := rfl

theorem Reached.sound {context : Context} (reached : Reached context) : context.Sound := by
  induction reached with
  | start settings clock name => exact sound_initial settings clock name
  | step _ step ih => exact (step.leads ih).1
  | statement number text origin truncated mayNest _ ih =>
    exact (follows_assembleStatement number text origin truncated mayNest _
      (⟨ih, .refl⟩ : Follows _ _)).1.sound
  | passTwo line _ first ih =>
    exact sound_betweenPasses (ending_finishPass line ih _ ⟨ih, .refl⟩) first

/-- What holds of the counters of all sections in every context of an assembly, and at the end of
each pass. No counter goes back within a pass, and whatever is placed at the origin counter, by a
statement or from the literal pool, is accepted. -/
theorem Reached.counters {context : Context} (reached : Reached context) :
    (∀ module ∈ context.modules, ∀ sec ∈ module.sections, sec.Ordered) ∧
    (∀ module ∈ context.modules, module.placeLiterals.2 = none) ∧
    (∀ width bits, (∃ block, context.currentSection.block.writeBits
        context.currentSection.originBits width bits = .ok block) ∧
      ((emitBits width bits).run context).2.statement = context.statement) ∧
    (∀ after, Step context after → context.Ahead after) ∧
    (∀ number text origin truncated mayNest, context.Ahead
      ((assembleStatement number text origin truncated mayNest).run context).2) ∧
    ∀ line, context.Ahead ((finishPass line).run context).2 ∧
      ∀ module ∈ ((finishPass line).run context).2.modules, ∀ sec ∈ module.sections,
        sec.Ordered := by
  have sound := reached.sound
  have begin : Follows context context := ⟨sound, .refl⟩
  refine ⟨?_, ?_, ?_, ?_, ?_, ?_⟩
  · exact fun module inside sec member => ((sound.modules module inside).sections sec member).ordered
  · exact fun module inside => (sound.modules module inside).placeLiterals.1
  · intro width bits
    have framed := sound.currentSection_sound.framed
    obtain ⟨block, result, -⟩ := emitBits_eq framed width bits
    refine ⟨Section.writeBits_accepted framed width bits, ?_⟩
    rw [result]
    rfl
  · exact fun after step => (step.leads sound).2
  · intro number text origin truncated mayNest
    have follows := (follows_assembleStatement number text origin truncated mayNest _ begin).1
    exact (follows.steps.leads sound).2
  · intro line
    have ending := ending_finishPass line sound _ begin
    refine ⟨ending.ahead, fun module inside sec member => ?_⟩
    exact ((ending.sound.modules module inside).sections sec member).ordered

/-- Five bits have been placed when the label of the second statement is found. -/
theorem Reached.counters_afterPlacing :
    let context := ((assembleStatement 2 "L        BSS       2" none false true).run
      ((assembleStatement 1 "         VWD       5/1" none false true).run
        ((Context.initial {} ⟨"", "", ""⟩ "MAIN").startPass .one)).2).2
    context.currentSection.originBits = 192 ∧
      ∀ module ∈ context.modules, ∀ sec ∈ module.sections, sec.Ordered :=
  ⟨by decide +kernel, (Reached.counters (.statement 2 "L        BSS       2" none false true
    (.statement 1 "         VWD       5/1" none false true
      (.start {} ⟨"", "", ""⟩ "MAIN")))).1⟩

theorem takes_runPass (lines : List SourceLine) (pass : Pass) :
    Takes (fun context => (context.startPass pass).Sound) (runPass lines pass)
      (fun context => ∃ start, start.pass = pass ∧ Ending start context) := by
  intro context sound
  refine ⟨context.startPass pass, rfl, ?_⟩
  exact ((follows_lines lines).takesBind fun _ => ending_finishPass _ sound) _ ⟨sound, .refl⟩

end Asm

namespace Assembly

/-- The context that an assembly ends with. -/
def finalContext (lines : List SourceLine) (name : String) (settings : Settings) (clock : Clock) :
    Context :=
  ((Asm.runPasses lines).run (.initial settings clock name)).2

theorem ending_finalContext (lines : List SourceLine) (name : String) (settings : Settings)
    (clock : Clock) :
    ∃ start, start.pass = .two ∧ Asm.Ending start (finalContext lines name settings clock) := by
  have prepared : Asm.Takes (fun context => ∃ start, start.pass = .one ∧ Asm.Ending start context)
      (modify Asm.betweenPasses : AsmM PUnit) (fun context => (context.startPass .two).Sound) := by
    rintro context ⟨start, first, ending⟩
    exact Asm.sound_betweenPasses ending first
  have both := (Asm.takes_runPass lines .one).bind fun _ =>
    prepared.bind fun _ => Asm.takes_runPass lines .two
  exact both _ (Asm.sound_initial settings clock name)

/-- Tables fit images: in every object module of an assembly in which no counter ran over, images
lie in their blocks, the fields of all entries lie in the image of their block, and the entries name
blocks and externals of the module. -/
theorem fits_of_counted (lines : List SourceLine) (name : String) (settings : Settings)
    (clock : Clock)
    (counted : ∀ module ∈ (finalContext lines name settings clock).modules,
      ∀ sec ∈ module.sections, sec.Counted) :
    ∀ object ∈ (ofLines lines name settings clock).objects, object.Fits := by
  intro object member
  obtain ⟨start, -, ending⟩ := ending_finalContext lines name settings clock
  rcases ending.sound.objects object (Array.mem_toList_iff.mp member) with fits | overrun
  · exact fits
  · obtain ⟨module, inside, sec, known, beyond⟩ := overrun
    exact (beyond (counted module inside sec known)).elim

/-- A module with entries of both kinds: a relocated word and one that holds an external. -/
def sampleLines : List SourceLine :=
  [⟨1, "         IDENT     SAMPLE", false⟩, ⟨2, "         EXT       OUT", false⟩,
    ⟨3, "L        CON       5", false⟩, ⟨4, "         CON       L", false⟩,
    ⟨5, "         CON       OUT+1", false⟩, ⟨6, "         END", false⟩]

theorem fits_sampleLines :
    (∃ object ∈ (ofLines sampleLines "MAIN" {} ⟨"", "", ""⟩).objects,
      ∃ block ∈ object.blocks, 0 < block.relocations.length ∧ 0 < block.externals.length) ∧
    ∀ object ∈ (ofLines sampleLines "MAIN" {} ⟨"", "", ""⟩).objects, object.Fits :=
  ⟨by decide +kernel, fits_of_counted sampleLines "MAIN" {} ⟨"", "", ""⟩ (by decide +kernel)⟩

end Assembly

end CrayAssembler
