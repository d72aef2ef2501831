import CrayAssembler.Proofs.Assembly.Session

namespace CrayAssembler

namespace Asm

theorem Deeds.steps {before after : Context} (deeds : Deeds before after) : Steps before after := by
  obtain ⟨references, run⟩ := deeds
  exact run.steps

/-- An action keeps an invariant, and its result has a property. -/
def Gives {α : Type} (I : Context → Prop) (action : AsmM α) (Q : α → Prop) : Prop :=
  ∀ context, I context → I (action.run context).2 ∧ Q (action.run context).1

/-- An action keeps an invariant. -/
def Keeps {α : Type} (I : Context → Prop) (action : AsmM α) : Prop :=
  Gives I action fun _ => True

section Logic

variable {α β : Type} {I : Context → Prop} {Q : α → Prop} {R : β → Prop}

theorem Gives.pure {value : α} (known : Q value) : Gives I (pure value) Q :=
  fun _ holds => ⟨holds, known⟩

theorem Gives.bind {action : AsmM α} {next : α → AsmM β} (first : Gives I action Q)
    (second : ∀ value, Q value → Gives I (next value) R) : Gives I (action >>= next) R := by
  intro context holds
  have middle := first context holds
  exact second _ middle.2 _ middle.1

theorem Gives.mono {action : AsmM α} {Q' : α → Prop} (gives : Gives I action Q)
    (weaker : ∀ value, Q value → Q' value) : Gives I action Q' :=
  fun context holds => ⟨(gives context holds).1, weaker _ (gives context holds).2⟩

theorem Keeps.pure (value : α) : Keeps I (pure value) := Gives.pure trivial

theorem Keeps.modify {change : Context → Context} (kept : ∀ context, I context → I (change context)) :
    Keeps I (modify change : AsmM PUnit) :=
  fun context holds => ⟨kept context holds, trivial⟩

theorem Keeps.bind {action : AsmM α} {next : α → AsmM β} (first : Keeps I action)
    (second : ∀ value, Gives I (next value) R) : Gives I (action >>= next) R :=
  Gives.bind first fun value _ => second value

/-- The context that is read is one for which the invariant holds. -/
theorem Gives.bindGet {next : Context → AsmM β}
    (second : ∀ context, I context → Gives I (next context) R) : Gives I (get >>= next) R :=
  fun context holds => second context holds context holds

/-- Something may be complained of first. -/
theorem Gives.complain {condition : Prop} [Decidable condition] {complaint : AsmM Unit}
    {rest : AsmM β} (first : Keeps I complaint) (second : Gives I rest R) :
    Gives I (if condition then complaint >>= fun _ => rest else rest) R := by
  split
  · exact first.bind fun _ => second
  · exact second

theorem Keeps.discard {action : AsmM α} (keeps : Keeps I action) : Keeps I (discard action) :=
  fun context holds => ⟨(keeps context holds).1, trivial⟩

theorem Keeps.forM {items : List α} {action : α → AsmM PUnit}
    (each : ∀ item ∈ items, Keeps I (action item)) : Keeps I (items.forM action) := by
  induction items with
  | nil => exact .pure _
  | cons item items ih =>
    refine (each item List.mem_cons_self).bind fun _ => ?_
    exact ih fun other member => each other (List.mem_cons_of_mem _ member)

end Logic

/-- An action takes contexts of one kind to contexts of another. -/
def Takes {α : Type} (before : Context → Prop) (action : AsmM α) (after : Context → Prop) : Prop :=
  ∀ context, before context → after (action.run context).2

section Taking

variable {α β : Type} {before middle after : Context → Prop} {action : AsmM α}
  {next : α → AsmM β}

theorem Takes.bind (first : Takes before action middle)
    (second : ∀ value, Takes middle (next value) after) : Takes before (action >>= next) after :=
  fun context holds => second _ _ (first context holds)

theorem Keeps.takes (keeps : Keeps before action) : Takes before action before :=
  fun context holds => (keeps context holds).1

theorem Keeps.takesBind (first : Keeps before action)
    (second : ∀ value, Takes before (next value) after) : Takes before (action >>= next) after :=
  first.takes.bind second

theorem Takes.complain {condition : Prop} [Decidable condition] {complaint : AsmM Unit}
    {rest : AsmM β} (first : Keeps before complaint) (second : Takes before rest after) :
    Takes before (if condition then complaint >>= fun _ => rest else rest) after := by
  split
  · exact first.takesBind fun _ => second
  · exact second

theorem Takes.keeps (takes : Takes before action before) : Keeps before action :=
  fun context holds => ⟨takes context holds, trivial⟩

theorem Takes.bindGet {next : Context → AsmM β}
    (second : ∀ context, Takes before (next context) after) :
    Takes before (get >>= next) after :=
  fun context holds => second context context holds

end Taking

/-- Sections and externals stay as they are. -/
structure Quiet (before after : Context) : Prop where
  deeds : Deeds before after
  pass : after.pass = before.pass
  moduleIndex : after.moduleIndex = before.moduleIndex
  sectionId : after.sectionId = before.sectionId
  sections : after.currentModule.sections = before.currentModule.sections
  externals : after.currentModule.externals = before.currentModule.externals

/-- The current section and all numbers that values refer to stay the same. -/
structure Steady (before after : Context) : Prop where
  pass : after.pass = before.pass
  moduleIndex : after.moduleIndex = before.moduleIndex
  sectionId : after.sectionId = before.sectionId
  types : after.currentModule.sections.map (·.type) = before.currentModule.sections.map (·.type)
  externals : after.currentModule.externals = before.currentModule.externals

/-- Deeds in the section that was current at the start. -/
structure Within (start context : Context) : Prop where
  sound : context.Sound
  deeds : Deeds start context
  steady : Steady start context

/-- Anything that a pass leads to. -/
structure Follows (start context : Context) : Prop where
  sound : context.Sound
  sessions : Sessions start context

/-- A value refers to the current module. -/
def Fitting (context : Context) (value : Value) : Prop :=
  value.Refers context.currentModule.sections.length context.currentModule.externals.length

section Frames

variable {start context after : Context}

theorem Quiet.steps (quiet : Quiet start context) : Steps start context := quiet.deeds.steps

theorem Follows.steps (follows : Follows start context) : Steps start context :=
  follows.sessions.steps

theorem Quiet.refl (context : Context) : Quiet context context :=
  ⟨.refl, rfl, rfl, rfl, rfl, rfl⟩

theorem Quiet.trans (first : Quiet start context) (second : Quiet context after) :
    Quiet start after where
  deeds := first.deeds.trans second.deeds
  pass := second.pass.trans first.pass
  moduleIndex := second.moduleIndex.trans first.moduleIndex
  sectionId := second.sectionId.trans first.sectionId
  sections := second.sections.trans first.sections
  externals := second.externals.trans first.externals

theorem Quiet.currentSection (quiet : Quiet start context) :
    context.currentSection = start.currentSection := by
  unfold Context.currentSection Module.getSection
  rw [quiet.sections, quiet.sectionId]

theorem Quiet.fitting (quiet : Quiet start context) (value : Value) :
    Fitting context value ↔ Fitting start value := by
  unfold Fitting
  rw [quiet.sections, quiet.externals]

theorem Steady.refl (context : Context) : Steady context context :=
  ⟨rfl, rfl, rfl, rfl, rfl⟩

theorem Steady.trans (first : Steady start context) (second : Steady context after) :
    Steady start after where
  pass := second.pass.trans first.pass
  moduleIndex := second.moduleIndex.trans first.moduleIndex
  sectionId := second.sectionId.trans first.sectionId
  types := second.types.trans first.types
  externals := second.externals.trans first.externals

theorem Quiet.steady (quiet : Quiet start context) : Steady start context where
  pass := quiet.pass
  moduleIndex := quiet.moduleIndex
  sectionId := quiet.sectionId
  types := congrArg (List.map (·.type)) quiet.sections
  externals := quiet.externals

/-- A change of the current section that keeps its type. -/
theorem steady_modifySection (context : Context) {change : Section → Section}
    (kept : ∀ sec, (change sec).type = sec.type) : Steady context (context.modifySection change) := by
  have modified : ∀ module : Module, ∀ id,
      (module.modifySection id change).sections.map (·.type) = module.sections.map (·.type) := by
    intro module id
    refine List.ext_getElem? fun place => ?_
    rw [List.getElem?_map, List.getElem?_map]
    change ((module.modifySection id change).section? place).map _ = _
    rw [Module.section?_modifySection, Option.map_map]
    refine congrArg (Option.map · _) (funext fun sec => ?_)
    change (if id = place then change sec else sec).type = sec.type
    split
    · exact kept sec
    · rfl
  by_cases current : context.moduleIndex < context.modules.length
  · have module := Context.currentModule_modifyModule current fun module =>
      module.modifySection context.sectionId.current change
    exact ⟨rfl, rfl, rfl, (congrArg (·.sections.map (·.type)) module).trans (modified _ _),
      congrArg (·.externals) module⟩
  · have same : (context.modifySection change).modules = context.modules :=
      List.modify_eq_self (Nat.not_lt.mp current)
    have module : (context.modifySection change).currentModule = context.currentModule := by
      unfold Context.currentModule
      rw [same]
      rfl
    exact ⟨rfl, rfl, rfl, by rw [module], by rw [module]⟩

theorem Within.refl (sound : context.Sound) : Within context context :=
  ⟨sound, .refl, .refl context⟩

theorem Within.deed (within : Within start context) (deed : Deed context after)
    (steady : Steady context after) : Within start after :=
  ⟨(deed.step.leads within.sound).1, within.deeds.tail deed, within.steady.trans steady⟩

theorem Within.quiet (within : Within start context) (quiet : Quiet context after) :
    Within start after :=
  ⟨(quiet.steps.leads within.sound).1, within.deeds.trans quiet.deeds,
    within.steady.trans quiet.steady⟩

theorem Within.length (within : Within start context) :
    context.currentModule.sections.length = start.currentModule.sections.length := by
  have lengths := congrArg List.length within.steady.types
  rwa [List.length_map, List.length_map] at lengths

theorem Within.fitting (within : Within start context) (value : Value) :
    Fitting context value ↔ Fitting start value := by
  unfold Fitting
  rw [within.length, within.steady.externals]

theorem type_getSection (module : Module) (id : SectionId) :
    (module.getSection id).type =
      ((module.sections.map (·.type))[id]?).getD .mixed := by
  unfold Module.getSection
  rw [List.getD_eq_getElem?_getD, List.getElem?_map]
  cases module.sections[id]? <;> rfl

theorem Within.type (within : Within start context) :
    context.currentSection.type = start.currentSection.type := by
  unfold Context.currentSection
  rw [type_getSection, type_getSection, within.steady.types, within.steady.sectionId]

theorem Follows.within (follows : Follows start context) (within : Within context after) :
    Follows start after :=
  ⟨within.sound, follows.sessions.deeds within.deeds⟩

theorem Follows.quiet (follows : Follows start context) (quiet : Quiet context after) :
    Follows start after :=
  ⟨(quiet.steps.leads follows.sound).1, follows.sessions.deeds quiet.deeds⟩

theorem Follows.deed (follows : Follows start context) (deed : Deed context after) :
    Follows start after :=
  ⟨(deed.step.leads follows.sound).1, follows.sessions.deeds (.single deed)⟩

theorem Follows.leave (follows : Follows start context) : Follows start context.left :=
  ⟨(Step.leave.leads follows.sound).1, follows.sessions.leave⟩

theorem Follows.close (follows : Follows start context)
    (inside : context.moduleIndex ≠ Context.anonymousModule) (statement : StatementState)
    (listing : Array Listing.Item) :
    Follows start ({ context.closed with statement, listing } : Context).left :=
  ⟨((steps_close context statement listing).leads follows.sound).1,
    follows.sessions.close inside statement listing⟩

end Frames

section Lifting

variable {α : Type} {action : AsmM α}

/-- What is quiet keeps whatever survives quiet actions. -/
theorem Gives.ofQuiet {I : Context → Prop} {Q : Context → α → Prop}
    (sound : ∀ {context}, I context → context.Sound)
    (stable : ∀ {context after}, I context → Quiet context after → I after)
    (quiet : ∀ start : Context, start.Sound → Gives (Quiet start) action (Q start)) :
    Gives I action fun value => ∃ context, I context ∧ Q context value := by
  intro context holds
  have result := quiet context (sound holds) context (.refl context)
  exact ⟨stable holds result.1, context, holds, result.2⟩

theorem Keeps.ofQuiet {I : Context → Prop} (sound : ∀ {context}, I context → context.Sound)
    (stable : ∀ {context after}, I context → Quiet context after → I after)
    (quiet : ∀ start : Context, start.Sound → Keeps (Quiet start) action) : Keeps I action := by
  intro context holds
  exact ⟨stable holds (quiet context (sound holds) context (.refl context)).1, trivial⟩

theorem Keeps.within {start : Context}
    (quiet : ∀ start : Context, start.Sound → Keeps (Quiet start) action) :
    Keeps (Within start) action :=
  .ofQuiet (·.sound) (·.quiet ·) quiet

theorem Keeps.quietFollows {start : Context}
    (quiet : ∀ start : Context, start.Sound → Keeps (Quiet start) action) :
    Keeps (Follows start) action :=
  .ofQuiet (·.sound) (·.quiet ·) quiet

theorem Keeps.follows {start : Context}
    (within : ∀ start : Context, start.Sound → Keeps (Within start) action) :
    Keeps (Follows start) action := by
  intro context holds
  exact ⟨holds.within (within context holds.sound context (.refl holds.sound)).1, trivial⟩

end Lifting

end Asm

end CrayAssembler
