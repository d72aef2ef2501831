import CrayAssembler.Proofs.Assembly.Passes
import CrayAssembler.Proofs.Assembly.References

namespace CrayAssembler

@[simp] theorem Section.advance_name (sec : Section) (bits : Nat) :
    (sec.advance bits).name = sec.name := by
  unfold advance
  split <;> rfl

namespace Module

variable {module : Module}

theorem Labelled.modifySection (labelled : module.Labelled) (id : SectionId)
    {change : Section → Section} (kept : ∀ sec, module.section? id = some sec →
      (change sec).name = sec.name) : (module.modifySection id change).Labelled := by
  obtain ⟨sec, found, name⟩ := Option.map_eq_some_iff.mp labelled
  unfold Labelled
  rw [section?_modifySection, found, Option.map_some, Option.map_some, ← name]
  split
  case isTrue same => rw [kept sec (same ▸ found)]
  case isFalse => rfl

theorem Labelled.of_sections {after : Module} (labelled : module.Labelled)
    (sections : after.sections = module.sections) : after.Labelled := by
  unfold Labelled section?
  rw [sections]
  exact labelled

theorem Labelled.addSection (labelled : module.Labelled) (name : String) (type : SectionType)
    (residency : Residency) : (module.addSection name type residency).Labelled := by
  obtain ⟨sec, found, same⟩ := Option.map_eq_some_iff.mp labelled
  unfold Labelled section? Module.addSection
  rw [List.getElem?_append_left (section?_lt found),
    show module.sections[literalsSection]? = some sec from found]
  exact congrArg some same

theorem Labelled.placeLiterals (labelled : module.Labelled) : module.placeLiterals.1.Labelled := by
  refine labelled.modifySection literalsSection fun sec found => ?_
  rw [Section.advance_name]
  unfold getSection
  rw [List.getD_eq_getElem?_getD, show module.sections[literalsSection]? = some sec from found]
  rfl

theorem labelled_iff :
    module.Labelled ↔ (module.sections.map (·.name))[literalsSection]? = some "=" := by
  rw [List.getElem?_map]
  rfl

theorem names_layOutFrom (next : Nat) (sections : List Section) :
    (layOutFrom next sections).map (·.name) = sections.map (·.name) := by
  induction sections generalizing next with
  | nil => rfl
  | cons sec sections ih =>
    unfold layOutFrom
    split
    · exact congrArg (sec.name :: ·) (ih _)
    · exact congrArg (sec.name :: ·) (ih _)

theorem Labelled.preparePassTwo (labelled : module.Labelled) : module.preparePassTwo.Labelled := by
  rw [labelled_iff] at labelled ⊢
  have names : module.preparePassTwo.sections.map (·.name) = module.sections.map (·.name) := by
    unfold Module.preparePassTwo
    dsimp only
    rw [List.map_map]
    split
    · exact names_layOutFrom 0 module.sections
    · rfl
  rw [names]
  exact labelled

/-- Undefined symbols become externals, and nothing else is done to a module. -/
theorem declareImplicitExternals_kept (module : Module) :
    module.declareImplicitExternals.sections = module.sections ∧
      module.declareImplicitExternals.literals = module.literals := by
  unfold declareImplicitExternals
  generalize module.symbols.undefined = keys
  induction keys generalizing module with
  | nil => exact ⟨rfl, rfl⟩
  | cons key keys ih =>
    rw [List.foldl_cons]
    split
    · exact ih module
    have added : (module.addExternal key).sections = module.sections ∧
        (module.addExternal key).literals = module.literals :=
      ⟨addExternal_sections _ _, addExternal_literals _ _⟩
    split
    case h_1 symbols made =>
      obtain ⟨sections, literals⟩ := ih { module.addExternal key with symbols }
      exact ⟨sections.trans added.1, literals.trans added.2⟩
    case h_2 =>
      obtain ⟨sections, literals⟩ := ih (module.addExternal key)
      exact ⟨sections.trans added.1, literals.trans added.2⟩

end Module

namespace Asm

variable {start context after : Context} {references more : List Reference}

section Naming

theorem named_modifyModule (named : context.Named) {change : Module → Module}
    (changed : context.currentModule.Labelled → (change context.currentModule).Labelled) :
    (context.modifyModule change).Named := by
  intro module member
  obtain ⟨index, found⟩ := List.getElem?_of_mem member
  rw [Context.getElem?_modifyModule] at found
  obtain ⟨old, lookup, rfl⟩ := Option.map_eq_some_iff.mp found
  have labelled := named old (List.mem_of_getElem? lookup)
  split
  case isTrue same =>
    have current : context.currentModule = old := by
      unfold Context.currentModule
      rw [same, List.getD_eq_getElem?_getD, lookup]
      rfl
    rw [← current] at labelled ⊢
    exact changed labelled
  case isFalse => exact labelled

theorem named_modifySection (named : context.Named) {change : Section → Section}
    (kept : ∀ sec, (change sec).name = sec.name) : (context.modifySection change).Named :=
  named_modifyModule named fun labelled => labelled.modifySection _ fun sec _ => kept sec

theorem named_emitBits (named : context.Named) (width : Nat) (bits : Word) :
    ((emitBits width bits).run context).2.Named := by
  unfold emitBits
  rw [StateT.run_bind, StateT.run_get, pure_bind]
  dsimp only
  split
  · exact named_modifySection named fun sec => Section.advance_name _ width
  · have advanced : (context.modifySection (·.advance width)).Named :=
      named_modifySection named fun sec => Section.advance_name sec width
    exact advanced

/-- No step names the section of literals anew. -/
theorem Step.named (step : Step context after) (named : context.Named) : after.Named := by
  cases step with
  | aside | selectSection | enter | leave | produce => exact named
  | describe change kept =>
    exact named_modifyModule named (·.of_sections (kept context.currentModule).2.1)
  | mention | define | intern => exact named_modifyModule named (·.of_sections rfl)
  | declareEntry key =>
    exact named_modifyModule named (·.of_sections (Module.addEntry_sections _ _))
  | declareExternal key symbols made =>
    exact named_modifyModule named (·.of_sections (Module.addExternal_sections _ _))
  | emit width bits => exact named_emitBits named width bits
  | emitReference kind fieldLength value parcel width bits =>
    change ((emitBits width bits).run
      ((recordReference kind fieldLength value parcel).run context).2).2.Named
    generalize recorded : ((recordReference kind fieldLength value parcel).run context).2 = middle
    refine named_emitBits ?_ width bits
    obtain rfl | ⟨d, rfl⟩ | ⟨-, ⟨id, -, rfl⟩ | ⟨external, -, rfl⟩⟩ :=
      recordReference_cases context kind fieldLength value parcel recorded
    · exact named
    · exact named
    · exact named_modifySection named fun _ => rfl
    · exact named_modifySection named fun _ => rfl
  | reserve bits => exact named_modifySection named fun sec => Section.advance_name sec bits
  | setLocation | setOrigin => exact named_modifySection named fun _ => rfl
  | addSection name type residency =>
    exact named_modifyModule named (·.addSection name type residency)
  | addModule name =>
    intro module member
    rcases List.mem_append.mp member with old | new
    · exact named module old
    · rw [List.mem_singleton.mp new]
      rfl
  | placeLiterals =>
    exact named_modifyModule named fun labelled => labelled.placeLiterals

theorem Steps.named (steps : Steps context after) (named : context.Named) : after.Named := by
  induction steps with
  | refl => exact named
  | tail _ step ih => exact step.named ih

end Naming

section Images

/-- Bits are placed in the current module. -/
theorem emitBits_modifies (context : Context) (width : Nat) (bits : Word) :
    ∃ change, ((emitBits width bits).run context).2.modules =
      (context.modifySection change).modules := by
  unfold emitBits
  rw [StateT.run_bind, StateT.run_get, pure_bind]
  dsimp only
  split <;> exact ⟨_, rfl⟩

/-- A reference and its field are placed in the current module. -/
theorem emitReference_modifies (context : Context) (kind : Object.EntryKind) (fieldLength : Nat)
    (value : Value) (parcel : Bool) (width : Nat) (bits : Word) :
    ∃ change, ((do
      recordReference kind fieldLength value parcel
      emitBits width bits : AsmM Unit).run context).2.modules =
        (context.modifySection change).modules := by
  change ∃ change, ((emitBits width bits).run
    ((recordReference kind fieldLength value parcel).run context).2).2.modules = _
  generalize recorded : ((recordReference kind fieldLength value parcel).run context).2 = middle
  obtain ⟨change, emitted⟩ := emitBits_modifies middle width bits
  rw [emitted]
  obtain rfl | ⟨d, rfl⟩ | ⟨-, ⟨id, -, rfl⟩ | ⟨external, -, rfl⟩⟩ :=
    recordReference_cases context kind fieldLength value parcel recorded
  · exact ⟨change, rfl⟩
  · exact ⟨change, rfl⟩
  · exact ⟨_, congrArg (·.modules) (Context.modifySection_modifySection ..)⟩
  · exact ⟨_, congrArg (·.modules) (Context.modifySection_modifySection ..)⟩

/-- In pass 2 a step changes the current module only. -/
theorem Step.elsewhere (step : Step context after) (second : context.pass = .two) {index : Nat}
    (other : context.moduleIndex ≠ index) : after.moduleAt index = context.moduleAt index := by
  have kept (change : Module → Module) :
      (context.modifyModule change).moduleAt index = context.moduleAt index := by
    rw [Context.moduleAt_modifyModule, if_neg fun both => other both.1]
  cases step with
  | aside | selectSection | enter | leave | produce => rfl
  | describe | mention | define | declareEntry | declareExternal | intern | placeLiterals =>
    exact kept _
  | emit width bits =>
    obtain ⟨change, emitted⟩ := emitBits_modifies context width bits
    exact (Context.moduleAt_of_modules emitted index).trans (kept _)
  | emitReference kind fieldLength value parcel width bits =>
    obtain ⟨change, emitted⟩ :=
      emitReference_modifies context kind fieldLength value parcel width bits
    exact (Context.moduleAt_of_modules emitted index).trans (kept _)
  | reserve | setLocation | setOrigin => exact kept _
  | addSection => exact kept _
  | addModule name first => nomatch first.symm.trans second

/-- While its module has not ended, no step of pass 2 touches the section of literals, unless it is
selected. -/
theorem Step.literals_kept (step : Step context after) (second : context.pass = .two)
    (known : context.moduleIndex < context.modules.length)
    (apart : context.sectionId.current ≠ literalsSection)
    (goesOn : (after.moduleAt context.moduleIndex).ended = false) (index : Nat) :
    (after.moduleAt index).getSection literalsSection =
      (context.moduleAt index).getSection literalsSection := by
  let Same (before after : Module) : Prop :=
    after.getSection literalsSection = before.getSection literalsSection
  have kept {change : Module → Module}
      (same : Same context.currentModule (change context.currentModule)) :
      Same (context.moduleAt index) ((context.modifyModule change).moduleAt index) :=
    Context.related_modifyModule (R := Same) (fun _ => rfl) same index
  have ofSections {module : Module} (sections : module.sections = context.currentModule.sections) :
      Same context.currentModule module := by
    change module.getSection _ = _
    unfold Module.getSection
    rw [sections]
  have elsewhere (change : Section → Section) :
      Same (context.moduleAt index) ((context.modifySection change).moduleAt index) := by
    refine kept ?_
    change (context.currentModule.modifySection _ change).getSection _ = _
    rw [Module.getSection_modifySection, if_neg fun both => apart both.1]
  cases step with
  | aside | selectSection | enter | leave | produce => rfl
  | describe change same => exact kept (ofSections (same context.currentModule).2.1)
  | mention | define | intern => exact kept rfl
  | declareEntry key => exact kept (ofSections (Module.addEntry_sections _ _))
  | declareExternal key symbols made => exact kept (ofSections (Module.addExternal_sections _ _))
  | emit width bits =>
    obtain ⟨change, emitted⟩ := emitBits_modifies context width bits
    rw [Context.moduleAt_of_modules emitted index]
    exact elsewhere change
  | emitReference kind fieldLength value parcel width bits =>
    obtain ⟨change, emitted⟩ :=
      emitReference_modifies context kind fieldLength value parcel width bits
    rw [Context.moduleAt_of_modules emitted index]
    exact elsewhere change
  | reserve | setLocation | setOrigin => exact elsewhere _
  | addSection name type residency first => nomatch first.symm.trans second
  | addModule name first => nomatch first.symm.trans second
  | placeLiterals =>
    rw [Context.moduleAt_modifyModule, if_pos ⟨rfl, known⟩] at goesOn
    nomatch goesOn

/-- The section of literals stays as it was at the start until its module ends; then it holds the
pool, and the object module has been given. -/
structure Flushed (start context : Context) : Prop where
  sound : context.Sound
  second : context.pass = .two
  opened : context.Open
  named : context.Named
  apart : literalsSection ∉ context.selected
  waiting : ∀ index, (context.moduleAt index).ended = false →
    (context.moduleAt index).getSection literalsSection =
      (start.moduleAt index).getSection literalsSection
  ended : ∀ index, (context.moduleAt index).ended = true →
    (context.moduleAt index).getSection literalsSection =
        ((start.moduleAt index).getSection literalsSection).withWords
          (context.moduleAt index).literals.words ∧
      (context.moduleAt index).toObject ∈ context.objects

theorem Flushed.step (flushed : Flushed start context) (step : Step context after)
    (level : Level context after)
    (same : ∀ index, (after.moduleAt index).ended = (context.moduleAt index).ended)
    (apart : literalsSection ∉ after.selected) (opened : after.Open) : Flushed start after where
  sound := (step.leads flushed.sound).1
  second := level.pass.trans flushed.second
  opened := opened
  named := step.named flushed.named
  apart := apart
  waiting index unended := by
    have goesOn : (after.moduleAt context.moduleIndex).ended = false :=
      (same _).trans flushed.opened.current
    have outside : context.sectionId.current ≠ literalsSection := fun current =>
      flushed.apart (current ▸ List.mem_cons_self)
    rw [step.literals_kept flushed.second flushed.sound.current_lt outside goesOn]
    exact flushed.waiting index ((same index).symm.trans unended)
  ended index ended := by
    have before := (same index).symm.trans ended
    have other : context.moduleIndex ≠ index := by
      rintro rfl
      nomatch flushed.opened.current.symm.trans before
    rw [step.elsewhere flushed.second other, level.objects]
    exact flushed.ended index before

theorem Flushed.run (flushed : Flushed start context) (run : Run context more after) :
    Flushed start after := by
  induction run with
  | refl => exact flushed
  | deed _ deed ih =>
    refine ih.step deed.step deed.level deed.ended ?_ ((Run.refl.deed deed).stays_open ih.opened)
    intro member
    rcases deed.selected ih.named literalsSection member with old | other
    · exact ih.apart old
    · exact other rfl
  | @refer _ middle key words _ length ih =>
    have run := (Run.refl : Run middle [] middle).refer key words length
    exact ih.step (.intern key words) run.level run.ended ih.apart (run.stays_open ih.opened)

/-- Another module is made current. -/
theorem Flushed.move (flushed : Flushed start context) (step : Step context after)
    (pass : after.pass = context.pass) (modules : after.modules = context.modules)
    (objects : after.objects = context.objects)
    (nominal : after.sectionId = .make nominalSection) (opened : after.Open) :
    Flushed start after where
  sound := (step.leads flushed.sound).1
  second := pass.trans flushed.second
  opened := opened
  named := step.named flushed.named
  apart := by
    unfold Context.selected
    rw [nominal]
    decide
  waiting index := by
    rw [Context.moduleAt_of_modules modules]
    exact flushed.waiting index
  ended index := by
    rw [Context.moduleAt_of_modules modules, objects]
    exact flushed.ended index

/-- Closing a module places its pool in its section of literals. -/
theorem closed_literals (sound : context.currentModule.Sound)
    (known : context.moduleIndex < context.modules.length) :
    (context.closed.moduleAt context.moduleIndex).getSection literalsSection =
      (context.currentModule.getSection literalsSection).withWords
        context.currentModule.literals.words := by
  rw [Context.moduleAt_closed, Context.moduleAt_sealed_self known]
  exact Module.getSection_placeLiterals sound

theorem closed_object (gives : context.sealed.gives) :
    (context.closed.moduleAt context.moduleIndex).toObject ∈ context.closed.objects := by
  rw [Context.moduleAt_closed]
  unfold Context.closed
  rw [if_pos gives]
  exact Array.mem_push_self

theorem objects_closed {object : Object.Module} (member : object ∈ context.objects) :
    object ∈ context.closed.objects := by
  unfold Context.closed
  split
  · exact Array.mem_push_of_mem _ member
  · exact member

theorem Flushed.close (flushed : Flushed start context)
    (inside : context.moduleIndex ≠ Context.anonymousModule) (statement : StatementState)
    (listing : Array Listing.Item) :
    Flushed start ({ context.closed with statement, listing } : Context).left := by
  have steps := steps_close context statement listing
  have known := flushed.sound.current_lt
  have other {index : Nat} (apart : context.moduleIndex ≠ index) :
      context.closed.moduleAt index = context.moduleAt index := by
    rw [Context.moduleAt_closed, Context.moduleAt_sealed_of_ne apart]
  have second : context.closed.pass = .two := (Context.closed_pass context).trans flushed.second
  refine ⟨(steps.leads flushed.sound).1, second, flushed.opened.close inside statement listing,
    Steps.named steps flushed.named, ?_, fun index unended => ?_, fun index ended => ?_⟩
  · change literalsSection ∉ [nominalSection]
    decide
  · change (context.closed.moduleAt index).getSection literalsSection = _
    change (context.closed.moduleAt index).ended = false at unended
    have apart : context.moduleIndex ≠ index := by
      rintro rfl
      rw [Context.moduleAt_closed, Context.moduleAt_sealed_self known] at unended
      nomatch unended
    rw [other apart] at unended ⊢
    exact flushed.waiting index unended
  · change (context.closed.moduleAt index).getSection literalsSection = _ ∧
      (context.closed.moduleAt index).toObject ∈ context.closed.objects
    change (context.closed.moduleAt index).ended = true at ended
    by_cases same : context.moduleIndex = index
    · subst same
      have gives : context.sealed.gives := by
        unfold Context.gives
        rw [show context.sealed.pass = .two from flushed.second,
          show context.sealed.moduleIndex = context.moduleIndex from rfl]
        simp [inside]
      refine ⟨?_, closed_object gives⟩
      rw [closed_literals flushed.sound.currentModule known]
      change _ = Section.withWords _ (context.closed.moduleAt _).literals.words
      rw [literals_closed, ← flushed.waiting _ flushed.opened.current]
      rfl
    · change _ = Section.withWords _ (context.closed.moduleAt _).literals.words ∧ _
      rw [other same] at ended ⊢
      exact (flushed.ended index ended).imp_right objects_closed

/-- A session of pass 2 in which no module has ended at the start. -/
theorem Flushed.session (flushed : Flushed start start)
    (session : Session start references context) : Flushed start context := by
  induction session with
  | refl => exact flushed
  | run _ run ih => exact ih.run run
  | enter index _ known fresh next ih =>
    exact ih.move (.enter index known) rfl rfl rfl rfl (ih.opened.enter fresh next)
  | leave _ ih => exact ih.move .leave rfl rfl rfl rfl ih.opened.leave
  | close statement listing _ inside ih => exact ih.close inside statement listing

/-- The context in which the anonymous module is closed. -/
def closingAnonymous (last : Context) (line : LineNumber) : Context :=
  { last with moduleIndex := Context.anonymousModule, statement := { line } }

/-- What the closing of the anonymous module comes to. -/
theorem closeAnonymousModule_eq (last : Context) (line : LineNumber) :
    ((closeAnonymousModule line).run last).2.modules = (closingAnonymous last line).closed.modules ∧
      ((closeAnonymousModule line).run last).2.objects =
        (closingAnonymous last line).closed.objects := by
  obtain ⟨statement, listing, closed⟩ := closeModule_eq (closingAnonymous last line)
  have run : (closeAnonymousModule line).run last = StateT.run (do
      let context ← get
      let diagnostics := context.statement.diagnostics
      modifyStatement fun statement => { statement with diagnostics := .empty }
      if context.pass = .two && !diagnostics.isEmpty then
        modify fun context =>
          { context with
            tally := context.tally.add diagnostics
            reports := context.reports.push ⟨line, "", diagnostics.toList⟩ })
      (closeModule.run (closingAnonymous last line)).2 := rfl
  rw [run, closed, StateT.run_bind, StateT.run_get, pure_bind]
  dsimp only
  split <;> exact ⟨rfl, rfl⟩

theorem literals_closeAnonymousModule (last : Context) (line : LineNumber) (index : Nat) :
    (((closeAnonymousModule line).run last).2.moduleAt index).literals =
      (last.moduleAt index).literals := by
  rw [Context.moduleAt_of_modules (closeAnonymousModule_eq last line).1, literals_closed]
  rfl

/-- A section that has words makes its module one that gives an object module. -/
theorem isEmpty_of_size {module : Module} {sec : Section} {id : SectionId}
    (found : module.section? id = some sec) (size : sec.size ≠ 0) : module.isEmpty = false := by
  unfold Module.isEmpty
  have some : module.sections.all (fun sec => sec.size = 0) = false := by
    rw [List.all_eq_false]
    exact ⟨sec, Module.mem_of_section? found, by simpa using size⟩
  rw [some]
  rfl

/-- What is in the object module of a module that was closed. -/
structure Given (start final : Context) (index : Nat) : Prop where
  section_eq : (final.moduleAt index).getSection literalsSection =
    ((start.moduleAt index).getSection literalsSection).withWords
      (final.moduleAt index).literals.words
  literals_lt : literalsSection < (final.moduleAt index).sections.length
  object_mem : (final.moduleAt index).literals.words ≠ [] →
    (final.moduleAt index).toObject ∈ final.objects

/-- The words of a pool are the image of the block of literals. -/
theorem Given.block {final : Context} {index : Nat} (given : Given start final index)
    (blank : ((start.moduleAt index).getSection literalsSection).Blank)
    (some : (final.moduleAt index).literals.words ≠ []) :
    ∃ block ∈ (final.moduleAt index).toObject.blocks,
      block.index = UInt64.ofNat literalsSection ∧
      block.origin = UInt64.ofNat
        ((start.moduleAt index).getSection literalsSection).originOffset ∧
      block.image = .some ⟨0, (final.moduleAt index).literals.words⟩ := by
  obtain ⟨origin, image, -⟩ := blank.toObject some literalsSection
  rw [← given.section_eq] at origin image
  exact ⟨_, Module.toObject_mem given.literals_lt, rfl, origin, image⟩

/-- The end of the pass closes the anonymous module, and leaves the others as they are. -/
theorem Flushed.given (flushed : Flushed start context)
    (blank : ∀ index, ((start.moduleAt index).getSection literalsSection).Blank)
    {line : LineNumber} {final : Context}
    (closed : ((closeAnonymousModule line).run context).2 = final) {index : Nat}
    (ended : (final.moduleAt index).ended = true) : Given start final index := by
  obtain ⟨modules, objects⟩ := closeAnonymousModule_eq context line
  rw [closed] at modules objects
  have at_eq (index : Nat) :
      final.moduleAt index = (closingAnonymous context line).closed.moduleAt index :=
    Context.moduleAt_of_modules modules index
  by_cases anonymous : Context.anonymousModule = index
  · subst anonymous
    have known : (closingAnonymous context line).moduleIndex <
        (closingAnonymous context line).modules.length :=
      Nat.lt_of_le_of_lt (Nat.zero_le _) flushed.sound.current_lt
    have sound : (closingAnonymous context line).currentModule.Sound :=
      flushed.sound.modules _ (Context.moduleAt_mem known)
    have placed := closed_literals sound known
    have pool := literals_closed (closingAnonymous context line) Context.anonymousModule
    have section_eq : (final.moduleAt Context.anonymousModule).getSection literalsSection =
        ((start.moduleAt Context.anonymousModule).getSection literalsSection).withWords
          (final.moduleAt Context.anonymousModule).literals.words := by
      rw [at_eq, pool, ← flushed.waiting _ flushed.opened.anonymous]
      exact placed
    have literals_lt : literalsSection <
        (final.moduleAt Context.anonymousModule).sections.length := by
      rw [at_eq, Context.moduleAt_closed]
      have sealed := Context.moduleAt_sealed_self known
      change (closingAnonymous context line).sealed.moduleAt Context.anonymousModule = _ at sealed
      rw [sealed]
      exact sound.placeLiterals.2.literals_lt
    refine ⟨section_eq, literals_lt, fun some => ?_⟩
    have size := ((blank Context.anonymousModule).toObject some literalsSection).2.2
    rw [← section_eq] at size
    have filled := isEmpty_of_size (Module.section?_of_lt literals_lt) size
    have gives : (closingAnonymous context line).sealed.gives := by
      unfold Context.gives
      rw [show (closingAnonymous context line).sealed.pass = .two from flushed.second,
        show (closingAnonymous context line).sealed.currentModule =
          final.moduleAt Context.anonymousModule by rw [at_eq, Context.moduleAt_closed]; rfl, filled]
      simp
    rw [at_eq, objects]
    exact closed_object gives
  · have same : final.moduleAt index = context.moduleAt index := by
      rw [at_eq, Context.moduleAt_closed, Context.moduleAt_sealed_of_ne anonymous]
      rfl
    rw [same] at ended
    obtain ⟨section_eq, member⟩ := flushed.ended index ended
    refine ⟨by rw [same]; exact section_eq, ?_, fun _ => ?_⟩
    · have known : index < context.modules.length := by
        refine Decidable.byContradiction fun beyond => ?_
        rw [Context.moduleAt_of_le (Nat.not_lt.mp beyond)] at ended
        nomatch ended
      rw [same]
      exact (flushed.sound.modules _ (Context.moduleAt_mem known)).literals_lt
    · rw [same, objects]
      exact objects_closed member

end Images

end Asm

end CrayAssembler
