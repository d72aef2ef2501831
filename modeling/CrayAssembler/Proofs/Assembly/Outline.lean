import CrayAssembler.Proofs.Assembly.Externals

namespace CrayAssembler

/-- What a section is told by. -/
structure Section.Heading where
  name : String
  type : SectionType
  residency : Residency
deriving DecidableEq, Repr

namespace Section

def heading (sec : Section) : Heading :=
  ⟨sec.name, sec.type, sec.residency⟩

@[simp] theorem heading_advance (sec : Section) (bits : Nat) :
    (sec.advance bits).heading = sec.heading := by
  unfold advance
  split <;> rfl

end Section

/-- The name of a module and the headings of its sections in order. -/
structure Module.Outline where
  name : String
  sections : List Section.Heading
deriving DecidableEq, Repr

namespace Module

def outline (module : Module) : Outline :=
  ⟨module.name, module.sections.map (·.heading)⟩

variable {module after : Module}

theorem outline_of_same (name : after.name = module.name)
    (sections : after.sections = module.sections) : after.outline = module.outline := by
  unfold outline
  rw [name, sections]

theorem outline_modifySection {id : SectionId} {change : Section → Section}
    (kept : ∀ sec, module.section? id = some sec → (change sec).heading = sec.heading) :
    (module.modifySection id change).outline = module.outline := by
  refine congrArg (Outline.mk module.name) (List.ext_getElem? fun place => ?_)
  rw [List.getElem?_map, List.getElem?_map]
  change ((module.modifySection id change).section? place).map _ = (module.section? place).map _
  rw [section?_modifySection]
  cases found : module.section? place with
  | none => rfl
  | some sec =>
    simp only [Option.map_some, Option.some.injEq]
    split
    case isTrue same => exact kept sec (same ▸ found)
    case isFalse => rfl

theorem outline_placeLiterals (module : Module) : module.placeLiterals.1.outline = module.outline := by
  refine outline_modifySection fun sec found => ?_
  rw [Section.heading_advance]
  obtain rfl : module.getSection literalsSection = sec :=
    Option.some.inj ((section?_of_lt (section?_lt found)).symm.trans found)
  rfl

theorem name_addEntry (module : Module) (key : SymbolKey) :
    (module.addEntry key).name = module.name := by
  unfold addEntry
  split <;> rfl

theorem name_addExternal (module : Module) (key : SymbolKey) :
    (module.addExternal key).name = module.name := by
  unfold addExternal
  split <;> rfl

theorem outline_declareImplicitExternals (module : Module) :
    module.declareImplicitExternals.outline = module.outline := by
  refine declareImplicitExternals_induction (P := fun later => later.outline = module.outline) rfl ?_
  intro later key symbols same _
  exact (outline_of_same (name_addExternal later key) (addExternal_sections later key)).trans same

theorem headings_layOutFrom (next : Nat) (sections : List Section) :
    (layOutFrom next sections).map (·.heading) = sections.map (·.heading) := by
  induction sections generalizing next with
  | nil => rfl
  | cons sec sections ih =>
    unfold layOutFrom
    split
    · exact congrArg (sec.heading :: ·) (ih _)
    · exact congrArg (sec.heading :: ·) (ih _)

theorem outline_preparePassTwo (module : Module) :
    module.preparePassTwo.outline = module.outline := by
  refine congrArg (Outline.mk module.name) ?_
  have restarted (sections : List Section) :
      (sections.map Section.restart).map (·.heading) = sections.map (·.heading) := by
    rw [List.map_map]
    rfl
  unfold preparePassTwo
  dsimp only
  rw [restarted]
  split
  · exact headings_layOutFrom 0 module.sections
  · rfl

end Module

namespace Context

/-- The outlines of all modules in order. -/
def outline (context : Context) : List Module.Outline :=
  context.modules.map (·.outline)

variable {context : Context}

theorem outline_modifyModule {change : Module → Module}
    (kept : (change context.currentModule).outline = context.currentModule.outline) :
    (context.modifyModule change).outline = context.outline := by
  refine List.ext_getElem? fun index => ?_
  unfold outline
  rw [List.getElem?_map, List.getElem?_map, getElem?_modifyModule]
  cases found : context.modules[index]? with
  | none => rfl
  | some module =>
    simp only [Option.map_some, Option.some.injEq]
    split
    case isTrue same =>
      have current : context.currentModule = module := by
        rw [currentModule, same, List.getD_eq_getElem?_getD, found, Option.getD_some]
      rwa [current] at kept
    case isFalse => rfl

theorem outline_modifySection {change : Section → Section}
    (kept : ∀ sec, (change sec).heading = sec.heading) :
    (context.modifySection change).outline = context.outline :=
  outline_modifyModule (Module.outline_modifySection fun sec _ => kept sec)

theorem outline_closed (context : Context) : context.closed.outline = context.outline := by
  unfold outline
  rw [closed_modules]
  exact outline_modifyModule (Module.outline_placeLiterals context.currentModule)

end Context

namespace Asm

variable {context after : Context}

theorem outline_emitBits (context : Context) (width : Nat) (bits : Word) :
    ((emitBits width bits).run context).2.outline = context.outline := by
  unfold emitBits
  rw [StateT.run_bind, StateT.run_get, pure_bind]
  dsimp only
  split
  case h_1 block _ =>
    exact Context.outline_modifySection fun sec =>
      Section.heading_advance { sec with block } width
  case h_2 =>
    have advanced : (context.modifySection (·.advance width)).outline = context.outline :=
      Context.outline_modifySection fun sec => sec.heading_advance width
    exact advanced

/-- No step of pass 2 makes a module or a section, or gives one another name. -/
theorem Step.outline (step : Step context after) (second : context.pass = .two) :
    after.outline = context.outline := by
  cases step with
  | aside | selectSection | enter | leave | produce => rfl
  | describe change kept =>
    obtain ⟨name, sections, -⟩ := kept context.currentModule
    exact Context.outline_modifyModule (Module.outline_of_same name sections)
  | mention | define | intern => exact Context.outline_modifyModule rfl
  | declareEntry key =>
    exact Context.outline_modifyModule (Module.outline_of_same (Module.name_addEntry _ key)
      (Module.addEntry_sections _ key))
  | declareExternal key =>
    exact Context.outline_modifyModule (Module.outline_of_same (Module.name_addExternal _ key)
      (Module.addExternal_sections _ key))
  | emit width bits => exact outline_emitBits context width bits
  | emitReference kind fieldLength value parcel width bits =>
    change ((emitBits width bits).run
      ((recordReference kind fieldLength value parcel).run context).2).2.outline = _
    rw [outline_emitBits]
    generalize recorded : ((recordReference kind fieldLength value parcel).run context).2 = middle
    obtain rfl | ⟨d, rfl⟩ | ⟨-, ⟨id, -, rfl⟩ | ⟨index, -, rfl⟩⟩ :=
      recordReference_cases context kind fieldLength value parcel recorded
    · rfl
    · rfl
    · exact Context.outline_modifySection fun _ => rfl
    · exact Context.outline_modifySection fun _ => rfl
  | reserve bits => exact Context.outline_modifySection fun sec => sec.heading_advance bits
  | setLocation | setOrigin => exact Context.outline_modifySection fun _ => rfl
  | addSection name type residency first => nomatch first.symm.trans second
  | addModule name first => nomatch first.symm.trans second
  | placeLiterals =>
    exact Context.outline_modifyModule (Module.outline_placeLiterals context.currentModule)

theorem Steps.outline (steps : Steps context after) (second : context.pass = .two) :
    after.outline = context.outline := by
  induction steps with
  | refl => rfl
  | tail steps step ih => exact (step.outline (Steps.pass steps |>.trans second)).trans ih

theorem outline_closeAnonymousModule (context : Context) (line : LineNumber) :
    ((closeAnonymousModule line).run context).2.outline = context.outline := by
  have modules := (closeAnonymousModule_eq context line).1
  unfold Context.outline
  rw [modules]
  exact Context.outline_closed (closingAnonymous context line)

theorem outline_finishPass (sound : context.Sound) (second : context.pass = .two)
    (line : LineNumber) : ((finishPass line).run context).2.outline = context.outline := by
  obtain ⟨last, steps, closed⟩ := finishPass_eq sound line
  rw [closed, outline_closeAnonymousModule]
  exact steps.outline second

theorem outline_betweenPasses (context : Context) :
    (betweenPasses context).outline = context.outline := by
  unfold betweenPasses Context.outline
  dsimp only
  rw [List.map_map]
  refine List.map_congr_left fun module _ => ?_
  refine (Module.outline_preparePassTwo _).trans ?_
  split
  · exact Module.outline_declareImplicitExternals module
  · rfl

/-- An action does not use the section that is current. -/
def Blind {α : Type} (action : AsmM α) : Prop :=
  ∀ context sectionId, action.run { context with sectionId } =
    ((action.run context).1, { (action.run context).2 with sectionId })

section Blindness

variable {α β : Type}

theorem Blind.pure (value : α) : Blind (pure value) :=
  fun _ _ => rfl

theorem Blind.bind {action : AsmM α} {next : α → AsmM β} (first : Blind action)
    (second : ∀ value, Blind (next value)) : Blind (action >>= next) := by
  intro context sectionId
  rw [StateT.run_bind, first context sectionId]
  exact second _ _ sectionId

theorem Blind.bindGet {next : Context → AsmM β}
    (same : ∀ context sectionId, next { context with sectionId } = next context)
    (second : ∀ context, Blind (next context)) : Blind (get >>= next) := by
  intro context sectionId
  change (next { context with sectionId }).run { context with sectionId } = _
  rw [same]
  exact second context context sectionId

theorem Blind.modify {change : Context → Context}
    (commutes : ∀ context sectionId,
      change { context with sectionId } = { change context with sectionId }) :
    Blind (modify change : AsmM PUnit) :=
  fun context sectionId => congrArg (Prod.mk PUnit.unit) (commutes context sectionId)

theorem Blind.complain {condition : Prop} [Decidable condition] {complaint : AsmM Unit}
    {rest : AsmM β} (first : Blind complaint) (second : Blind rest) :
    Blind (if condition then complaint >>= fun _ => rest else rest) := by
  split
  · exact first.bind fun _ => second
  · exact second

end Blindness

theorem blind_produceObject : Blind produceObject := by
  refine .bindGet (fun _ _ => rfl) fun context => ?_
  dsimp only
  split
  · exact .complain (.modify fun _ _ => rfl) (.complain (.modify fun _ _ => rfl)
      (.modify fun _ _ => rfl))
  · exact .pure _

theorem blind_closeModule : Blind closeModule := by
  refine .bindGet (fun _ _ => rfl) fun context => ?_
  refine (Blind.modify fun _ _ => rfl).bind fun _ => ?_
  split
  · exact (Blind.modify fun _ _ => rfl).bind fun _ => blind_produceObject
  · exact blind_produceObject

/-- The section that is current does not matter for closing the anonymous module. -/
theorem blind_closeAnonymousModule (line : LineNumber) : Blind (closeAnonymousModule line) := by
  refine (Blind.modify fun _ _ => rfl).bind fun _ => blind_closeModule.bind fun _ => ?_
  refine .bindGet (fun _ _ => rfl) fun context => ?_
  refine (Blind.modify fun _ _ => rfl).bind fun _ => ?_
  split
  · exact .modify fun _ _ => rfl
  · exact .pure _

end Asm

namespace Assembly

variable (lines others : List SourceLine) (name : String) (settings : Settings) (clock : Clock)

/-- Pass 2 creates nothing, even if it is given other statements than pass 1. In each of its contexts
and after it the modules and their sections are those that pass 1 left. The module that is current is
one of them, and the sections that are current or saved are sections of that module. At the end of the
pass the anonymous module is closed without regard to the section that was current last. -/
theorem outline_passTwo :
    let start := Asm.betweenPasses (passOneEnd lines name settings clock)
    let outline := (passOneEnd lines name settings clock).outline
    ((Asm.runPass others .two).run start).2.outline = outline ∧
    (∀ context, Asm.Steps (start.startPass .two) context →
      context.outline = outline ∧ context.moduleIndex < context.modules.length ∧
        ∀ id ∈ context.selected, id < context.currentModule.sections.length) ∧
    (∀ count, Asm.Steps (start.startPass .two)
      (((others.take count).forM Asm.assembleSourceLine).run (start.startPass .two)).2) ∧
    ∃ last line, Asm.Steps (start.startPass .two) last ∧
      ((Asm.runPass others .two).run start).2 = ((Asm.closeAnonymousModule line).run last).2 ∧
      ∀ sectionId, ((Asm.closeAnonymousModule line).run { last with sectionId }).2 =
        { ((Asm.closeAnonymousModule line).run last).2 with sectionId } := by
  intro start outline
  have sound : (start.startPass .two).Sound := sound_passTwoStart lines name settings clock
  have begun : (start.startPass .two).outline = outline := Asm.outline_betweenPasses _
  have assembled (taken : List SourceLine) : Asm.Steps (start.startPass .two)
      ((taken.forM Asm.assembleSourceLine).run (start.startPass .two)).2 :=
    (Asm.follows_lines taken _ ⟨sound, .refl⟩).1.steps
  have ended := ((assembled others).leads sound).1
  have run : ((Asm.runPass others .two).run start).2 =
      ((Asm.finishPass ((others.getLast?.map (·.number + 1)).getD 1)).run
        ((others.forM Asm.assembleSourceLine).run (start.startPass .two)).2).2 := rfl
  refine ⟨?_, ?_, fun count => assembled _, ?_⟩
  · rw [run, Asm.outline_finishPass ended (Asm.Steps.pass (assembled others))]
    exact ((assembled others).outline rfl).trans begun
  · intro context steps
    have later := (steps.leads sound).1
    exact ⟨(steps.outline rfl).trans begun, later.current_lt, later.sections_lt⟩
  · obtain ⟨last, steps, closed⟩ :=
      Asm.finishPass_eq ended ((others.getLast?.map (·.number + 1)).getD 1)
    refine ⟨last, _, (assembled others).trans steps, run.trans closed, fun sectionId => ?_⟩
    exact congrArg Prod.snd (Asm.blind_closeAnonymousModule _ last sectionId)

end Assembly

end CrayAssembler
