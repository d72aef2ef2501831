import CrayAssembler.Proofs.Assembly.Glance
import CrayAssembler.Proofs.Assembly.Opening
import CrayAssembler.Proofs.Assembly.Outline

namespace CrayAssembler

theorem DiagnosticSet.contains_insert_iff (set : DiagnosticSet) (d other : Diagnostic) :
    (set.insert d).contains other ↔ other = d ∨ set.contains other := by
  simp only [insert, contains, List.contains_iff_mem, List.mem_filter, other.mem_all, true_and,
    Bool.or_eq_true, beq_iff_eq]

namespace Module

/-- No two sections have the same heading. -/
def Distinct (module : Module) : Prop :=
  (module.sections.map (·.heading)).Nodup

variable {module after : Module} {name : String} {type : SectionType} {residency : Residency}

theorem heading_eq_iff {sec : Section} :
    sec.heading = ⟨name, type, residency⟩ ↔
      (sec.name = name && sec.type = type && sec.residency = residency) := by
  simp only [Section.heading, Section.Heading.mk.injEq, Bool.and_eq_true, decide_eq_true_eq, and_assoc]

theorem Distinct.of_outline (distinct : module.Distinct) (same : after.outline = module.outline) :
    after.Distinct := by
  have headings : after.sections.map (·.heading) = module.sections.map (·.heading) :=
    congrArg Outline.sections same
  unfold Distinct
  rwa [headings]

theorem distinct_make (name : String) : (make name).Distinct := by
  have apart : [Section.Heading.mk "" .mixed .cm, ⟨"=", .data, .cm⟩].Nodup := by decide
  exact apart

/-- The section that has a heading is the one that is found by it. -/
theorem Distinct.findSection? (distinct : module.Distinct) {id : SectionId} {sec : Section}
    (found : module.section? id = some sec) :
    module.findSection? sec.name sec.type sec.residency = some id := by
  obtain ⟨known, rfl⟩ := List.getElem?_eq_some_iff.mp found
  refine List.findIdx?_eq_some_iff_getElem.mpr
    ⟨known, heading_eq_iff.mp rfl, fun other before same => ?_⟩
  have earlier : other < module.sections.length := Nat.lt_trans before known
  have headings := heading_eq_iff.mpr same
  refine List.pairwise_iff_getElem.mp distinct other id (by rwa [List.length_map])
    (by rwa [List.length_map]) before ?_
  rw [List.getElem_map, List.getElem_map]
  exact headings

theorem Distinct.addSection (distinct : module.Distinct)
    (new : module.findSection? name type residency = none) :
    (module.addSection name type residency).Distinct := by
  unfold Distinct Module.addSection
  rw [List.map_append, List.nodup_append]
  refine ⟨distinct, List.pairwise_singleton .., fun heading old other added same => ?_⟩
  obtain ⟨sec, inside, rfl⟩ := List.mem_map.mp old
  have again : sec.heading = ⟨name, type, residency⟩ := same.trans (List.mem_singleton.mp added)
  have refused := List.findIdx?_eq_none_iff.mp new sec inside
  rw [heading_eq_iff.mp again] at refused
  nomatch refused

/-- Sections that are made are new, and nothing changes a heading. -/
def distinction : Trait where
  ofModule := Distinct
  ofValue _ := True
  values := Value.closed_true
  symbol _ _ _ := trivial
  address _ _ _ _ _ := trivial
  literal _ := trivial
  mention _ _ distinct := distinct
  define distinct _ _ := distinct
  declareEntry key module distinct := distinct.of_outline
    (outline_of_same (name_addEntry module key) (addEntry_sections module key))
  declareExternal {module key _} distinct _ := distinct.of_outline
    (outline_of_same (name_addExternal module key) (addExternal_sections module key))
  addSection _ _ _ _ distinct new := distinct.addSection new
  place distinct kept := distinct.of_outline (outline_modifySection fun sec found => by
    rw [Section.heading, (kept sec found).name, (kept sec found).type, (kept sec found).residency]
    rfl)
  relocate _ _ _ _ distinct _ _ := distinct.of_outline (outline_modifySection fun _ _ => rfl)
  describe distinct _ sections _ _ := by
    unfold Distinct
    rwa [sections]

end Module

namespace Asm

variable {context : Context}

/-- Wherever a statement is assembled, the sections of the current module have different headings. -/
theorem Occurs.distinct (occurs : Occurs context) : context.currentModule.Distinct := by
  have everywhere : Everywhere Module.distinction context :=
    occurs.everywhere_of Module.distinct_make fun {module} distinct =>
      Module.Distinct.of_outline distinct (Module.outline_preparePassTwo module)
  exact everywhere context.moduleIndex occurs.reached.sound.current_lt

/-- A statement opens the section with a heading. -/
inductive Opens : Directive → Fields → Section.Heading → Prop
  | typed {fields : Fields} {type : SectionType} {residency : Residency} (other : fields.operand ≠ "*")
      (keywords : sectionKeywords (Fields.subfields fields.operand) (.mixed, .cm) =
        some (type, residency))
      (named : fields.location = "" ∨ Fields.isIdentifier fields.location) :
      Opens .openSection fields ⟨fields.location, type, residency⟩
  | block {fields : Fields} (named : fields.operand = "" ∨ Fields.isIdentifier fields.operand) :
      Opens .openBlock fields ⟨fields.operand, .mixed, .cm⟩
  | common {fields : Fields} (named : fields.operand = "" ∨ Fields.isIdentifier fields.operand) :
      Opens .openCommon fields ⟨fields.operand, .common, .cm⟩

end Asm

namespace Context

/-- The name of a task common section cannot be defined as the address of its base. -/
def Clashes (context : Context) (id : SectionId) (sec : Section) : Prop :=
  sec.type = .taskCom ∧ sec.name ≠ "" ∧
    SymbolTable.conflicts (context.currentModule.symbols.value ⟨context.qualifier.current, sec.name⟩)
      (.address .word id (UInt64.ofNat sec.baseWord) context.relocatable) false context.pass

instance (context : Context) (id : SectionId) (sec : Section) : Decidable (context.Clashes id sec) :=
  inferInstanceAs (Decidable (_ ∧ _ ∧ _))

/-- The name of a section, which is current, stands for the address of its base. -/
def labelled (context : Context) (sec : Section) (entry : Bool) : Context :=
  let base : Value :=
    .address .word context.sectionId.current (UInt64.ofNat sec.baseWord) context.relocatable
  context.modifyModule fun module =>
    { module with
      symbols := context.currentModule.symbols.insert ⟨context.qualifier.current, sec.name⟩
        (base.held false context.pass entry) }

/-- There is room to save the current section, or it is not saved. -/
def HasRoom (context : Context) : Prop :=
  context.settings.noSectionStack ∨ context.sectionId.saved.items.length < settingDepth

instance (context : Context) : Decidable context.HasRoom :=
  inferInstanceAs (Decidable (_ ∨ _))

/-- A section of the module is made current, and no section of any module is another than before. -/
structure Reenters (id : SectionId) (before after : Context) : Prop where
  current : after.sectionId.current = id
  saved : after.sectionId.saved.items = if before.settings.noSectionStack then
    before.sectionId.saved.items else before.sectionId.current :: before.sectionId.saved.items
  moduleIndex : after.moduleIndex = before.moduleIndex
  sections : ∀ index, (after.moduleAt index).sections = (before.moduleAt index).sections

/-- The section that was entered is as it was. -/
theorem Reenters.currentSection {id : SectionId} {before after : Context} {sec : Section}
    (reenters : Reenters id before after) (found : before.currentModule.section? id = some sec) :
    after.currentSection = sec := by
  have sections : after.currentModule.sections = before.currentModule.sections := by
    unfold currentModule
    rw [reenters.moduleIndex]
    exact reenters.sections before.moduleIndex
  unfold Context.currentSection Module.getSection
  rw [reenters.current, sections, List.getD_eq_getElem?_getD,
    show before.currentModule.sections[id]? = _ from found]
  rfl

/-- A section is entered again. The one error that this can draw is that its name is refused, and then
the name is refused at the next time too. -/
structure Reopens (id : SectionId) (sec : Section) (before after : Context) : Prop extends
    Reenters id before after where
  error_iff : ∀ kind, after.statement.diagnostics.contains (.error kind) ↔
    before.statement.diagnostics.contains (.error kind) ∨
      kind = .doubleDefinition ∧ before.Clashes id sec
  clashes : sec.type = .taskCom → sec.name ≠ "" → after.Clashes id sec

end Context

namespace Asm

section Selecting

variable {context : Context} {id : SectionId}

theorem run_selectSection (room : context.HasRoom) (id : SectionId) :
    ∃ saved : BoundedStack SectionId settingDepth,
      (saved.items = if context.settings.noSectionStack then context.sectionId.saved.items
        else context.sectionId.current :: context.sectionId.saved.items) ∧
      (selectSection id).run context = ((), { context with sectionId := ⟨id, saved⟩ }) := by
  unfold selectSection
  simp only [StateT.run_bind, StateT.run_get, pure_bind]
  by_cases unsaved : context.settings.noSectionStack = true
  · rw [if_pos unsaved, if_pos unsaved]
    exact ⟨context.sectionId.saved, rfl, rfl⟩
  · rw [if_neg unsaved, if_neg unsaved]
    have space := room.resolve_left unsaved
    refine ⟨⟨context.sectionId.current :: context.sectionId.saved.items, space⟩, rfl, ?_⟩
    unfold change Setting.replace BoundedStack.push
    rw [dif_pos space]
    rfl

theorem reenters_selected (id : SectionId) (saved : BoundedStack SectionId settingDepth)
    (same : saved.items = if context.settings.noSectionStack then context.sectionId.saved.items
      else context.sectionId.current :: context.sectionId.saved.items) :
    context.Reenters id { context with sectionId := ⟨id, saved⟩ } :=
  ⟨rfl, same, rfl, fun _ => rfl⟩

end Selecting

section Labelling

variable {context : Context} {sec : Section}

/-- Define the name of a task common section, which is current. -/
def labelSection (sec : Section) : AsmM Unit :=
  if sec.type = .taskCom && !sec.name.isEmpty then do
    let context ← get
    let base := UInt64.ofNat context.currentSection.baseWord
    defineSymbol sec.name (.address .word context.sectionId.current base context.relocatable) false
  else return ()

/-- The name of a section is defined, or refused, or nothing is done. -/
theorem run_labelSection (named : sec.name = "" ∨ Fields.isIdentifier sec.name)
    (current : context.currentSection = sec) :
    ∃ entry, (labelSection sec).run context = ((),
      if context.Clashes context.sectionId.current sec then context.register (.error .doubleDefinition)
      else if sec.type = .taskCom ∧ sec.name ≠ "" then context.labelled sec entry
      else context) := by
  by_cases asked : sec.type = .taskCom ∧ sec.name ≠ ""
  case neg =>
    have unasked : ¬(sec.type = .taskCom && !sec.name.isEmpty) := by
      simpa using asked
    have free : ¬context.Clashes context.sectionId.current sec := fun clashes =>
      asked ⟨clashes.1, clashes.2.1⟩
    refine ⟨false, ?_⟩
    rw [labelSection, if_neg unasked, if_neg free, if_neg asked]
    rfl
  case pos =>
    have defines : (sec.type = .taskCom && !sec.name.isEmpty) = true := by
      simpa using asked
    obtain ⟨entry, outcome⟩ := SymbolTable.define_eq context.currentModule.symbols
      ⟨context.qualifier.current, sec.name⟩
      (.address .word context.sectionId.current (UInt64.ofNat sec.baseWord) context.relocatable) false
      context.pass
    refine ⟨entry, ?_⟩
    rw [labelSection, if_pos defines, StateT.run_bind, StateT.run_get, pure_bind]
    dsimp only
    rw [current, run_defineSymbol (named.resolve_left asked.2), outcome]
    by_cases refused : context.Clashes context.sectionId.current sec
    · rw [if_pos refused, if_pos refused.2.2]
    · rw [if_neg refused, if_neg fun conflict => refused ⟨asked.1, asked.2, conflict⟩, if_pos asked]
      rfl

/-- What is defined in a pass is not defined again as something that must not change. -/
theorem conflicts_held (value other : Value) (pass : Pass) (entry : Bool)
    (defined : value.isUndefined = false) :
    SymbolTable.conflicts (value.held false pass entry) other false pass := by
  have same : (value.held false pass entry).isUndefined = false := defined
  unfold SymbolTable.conflicts
  cases pass with
  | one => simp [same]
  | two => simp [Value.held]

theorem conflicts_labelled (seated : Seated context) (sec : Section) (entry : Bool) (other : Value) :
    SymbolTable.conflicts ((context.labelled sec entry).currentModule.symbols.value
      ⟨context.qualifier.current, sec.name⟩) other false context.pass := by
  unfold Context.labelled
  dsimp only
  rw [Context.currentModule_modifyModule seated.1, SymbolTable.value_insert, if_pos rfl]
  exact conflicts_held _ _ _ entry rfl

/-- Naming a section changes no section and draws at most one error, and no second naming is accepted. -/
theorem labelled_section (seated : Seated context)
    (named : sec.name = "" ∨ Fields.isIdentifier sec.name) (current : context.currentSection = sec) :
    let after := ((labelSection sec).run context).2
    after.sectionId = context.sectionId ∧ after.moduleIndex = context.moduleIndex ∧
      (∀ index, (after.moduleAt index).sections = (context.moduleAt index).sections) ∧
      (∀ kind, after.statement.diagnostics.contains (.error kind) ↔
        context.statement.diagnostics.contains (.error kind) ∨
          kind = .doubleDefinition ∧ context.Clashes context.sectionId.current sec) ∧
      (sec.type = .taskCom → sec.name ≠ "" → after.Clashes context.sectionId.current sec) := by
  obtain ⟨entry, labelled⟩ := run_labelSection named current
  intro after
  have outcome : after = _ := congrArg Prod.snd labelled
  dsimp only at outcome
  by_cases clashes : context.Clashes context.sectionId.current sec
  · rw [if_pos clashes] at outcome
    rw [outcome]
    refine ⟨rfl, rfl, fun _ => rfl, fun kind => ?_, fun _ _ => clashes⟩
    refine (DiagnosticSet.contains_insert_iff ..).trans ?_
    rw [Diagnostic.error.injEq, or_comm]
    exact or_congr_right (and_iff_left clashes).symm
  · rw [if_neg clashes] at outcome
    have undrawn (kind : ErrorKind) : context.statement.diagnostics.contains (.error kind) ↔
        context.statement.diagnostics.contains (.error kind) ∨
          kind = .doubleDefinition ∧ context.Clashes context.sectionId.current sec :=
      (or_iff_left fun both => clashes both.2).symm
    by_cases asked : sec.type = .taskCom ∧ sec.name ≠ ""
    · rw [if_pos asked] at outcome
      rw [outcome]
      refine ⟨rfl, rfl, fun index => ?_, undrawn, fun _ _ => ⟨asked.1, asked.2, ?_⟩⟩
      · rw [Context.labelled, Context.moduleAt_modifyModule]
        split <;> rfl
      · exact conflicts_labelled seated sec entry _
    · rw [if_neg asked] at outcome
      rw [outcome]
      exact ⟨rfl, rfl, fun _ => rfl, undrawn, fun taskCom some => absurd ⟨taskCom, some⟩ asked⟩

end Labelling

section Reentering

variable {context : Context} {fields : Fields} {id : SectionId}

theorem run_ignoreLocation (fields : Fields) (context : Context) :
    (ignoreLocation fields).run context = ((), if fields.location.isEmpty then context
      else context.register (.warning .ignoredLocationSymbol)) := by
  unfold ignoreLocation
  split <;> rfl

theorem run_openNamed {type : SectionType}
    (named : fields.operand = "" ∨ Fields.isIdentifier fields.operand)
    (found : context.currentModule.findSection? fields.operand type .cm = some id) :
    (openNamed type fields).run context =
      (selectSection id).run ((ignoreLocation fields).run context).2 := by
  have other : fields.operand ≠ "*" := by
    intro restores
    rw [restores] at named
    exact absurd named (by decide)
  have valid : (fields.operand.isEmpty || Fields.isIdentifier fields.operand) = true := by
    rw [Bool.or_eq_true, String.isEmpty_iff]
    exact named
  have kept : ((ignoreLocation fields).run context).2.currentModule = context.currentModule := by
    rw [run_ignoreLocation]
    dsimp only
    split <;> rfl
  unfold openNamed
  rw [StateT.run_bind]
  change StateT.run (if fields.operand = "*" then _ else _) ((ignoreLocation fields).run context).2 = _
  rw [if_neg other, if_pos valid, StateT.run_bind]
  unfold findOrAddSection
  rw [StateT.run_bind, StateT.run_get, pure_bind]
  dsimp only
  rw [kept, found]
  rfl

theorem run_openSection {type : SectionType} {residency : Residency} {sec : Section}
    (other : fields.operand ≠ "*")
    (keywords : sectionKeywords (Fields.subfields fields.operand) (.mixed, .cm) =
      some (type, residency))
    (valid : fields.location = "" ∨ Fields.isIdentifier fields.location)
    (same : sec.heading = ⟨fields.location, type, residency⟩)
    (found : context.currentModule.findSection? fields.location type residency = some id)
    (room : context.HasRoom) :
    (openSection fields).run context =
      (labelSection sec).run ((selectSection id).run context).2 := by
  have named : ¬(!fields.location.isEmpty && !Fields.isIdentifier fields.location) = true := by
    rw [Bool.and_eq_true, Bool.not_eq_true', Bool.not_eq_true']
    rintro ⟨some, wrong⟩
    rcases valid with none | right
    · rw [none] at some
      nomatch some
    · nomatch right.symm.trans wrong
  obtain ⟨saved, -, selected⟩ := run_selectSection room id
  unfold openSection
  dsimp only
  rw [if_neg other, keywords]
  dsimp only
  rw [if_neg named, StateT.run_bind]
  unfold findOrAddSection
  rw [StateT.run_bind, StateT.run_get, pure_bind]
  dsimp only
  rw [found]
  change StateT.run (selectSection id >>= _) context = _
  rw [StateT.run_bind, selected]
  have name : sec.name = fields.location := congrArg (·.name) same
  have typed : sec.type = type := congrArg (·.type) same
  unfold labelSection
  rw [name, typed]
  dsimp only
  split <;> rfl

/-- A section that is not a task common one is opened again without an error. -/
theorem reopens_openNamed {type : SectionType} {sec : Section} (room : context.HasRoom)
    (valid : fields.operand = "" ∨ Fields.isIdentifier fields.operand)
    (found : context.currentModule.findSection? fields.operand type .cm = some id)
    (typed : sec.type = type) (apart : type ≠ .taskCom) :
    context.Reopens id sec ((openNamed type fields).run context).2 := by
  have unnamed : sec.type ≠ .taskCom := typed ▸ apart
  suffices opened : context.Reenters id ((openNamed type fields).run context).2 ∧
      ∀ kind, ((openNamed type fields).run context).2.statement.diagnostics.contains (.error kind) ↔
        context.statement.diagnostics.contains (.error kind) from
    { toReenters := opened.1
      error_iff := fun kind =>
        (opened.2 kind).trans (or_iff_left fun both => unnamed both.2.1).symm
      clashes := fun taskCom => absurd taskCom unnamed }
  rw [run_openNamed valid found, run_ignoreLocation]
  dsimp only
  by_cases unlabelled : fields.location.isEmpty = true
  · rw [if_pos unlabelled]
    obtain ⟨saved, same, selected⟩ := run_selectSection room id
    rw [selected]
    exact ⟨reenters_selected id saved same, fun _ => Iff.rfl⟩
  · rw [if_neg unlabelled]
    have spacious : (context.register (.warning .ignoredLocationSymbol)).HasRoom := room
    obtain ⟨saved, same, selected⟩ := run_selectSection spacious id
    rw [selected]
    have reenters := reenters_selected id saved same
    refine ⟨⟨reenters.current, reenters.saved, reenters.moduleIndex, reenters.sections⟩, fun kind => ?_⟩
    exact (DiagnosticSet.contains_insert_iff ..).trans (or_iff_right nofun)

theorem reopens_openSection (seated : Seated context) {type : SectionType} {residency : Residency}
    {sec : Section} (room : context.HasRoom) (other : fields.operand ≠ "*")
    (keywords : sectionKeywords (Fields.subfields fields.operand) (.mixed, .cm) =
      some (type, residency))
    (valid : fields.location = "" ∨ Fields.isIdentifier fields.location)
    (same : sec.heading = ⟨fields.location, type, residency⟩)
    (lookup : context.currentModule.findSection? fields.location type residency = some id)
    (found : context.currentModule.section? id = some sec) :
    context.Reopens id sec ((openSection fields).run context).2 := by
  obtain ⟨saved, items, selected⟩ := run_selectSection room id
  have current := (reenters_selected id saved items).currentSection found
  have seated : Seated { context with sectionId := ⟨id, saved⟩ } :=
    ⟨seated.1, Module.section?_lt found⟩
  have name : sec.name = fields.location := congrArg (·.name) same
  obtain ⟨sectionId, moduleIndex, sections, errors, again⟩ :=
    labelled_section seated (name ▸ valid) current
  rw [run_openSection other keywords valid same lookup room, selected]
  exact {
    current := congrArg (·.current) sectionId
    saved := (congrArg (·.saved.items) sectionId).trans items
    moduleIndex, sections
    error_iff := errors
    clashes := again }

/-- A statement that names a section of the module makes exactly this one current, and leaves it and
all other sections as they are. The one error that it can draw is for the name of a task common
section, which is defined at every opening and accepted at the first one at most. -/
theorem reopens_of_opens (occurs : Occurs context) {directive : Directive} {sec : Section}
    (opens : Opens directive fields sec.heading)
    (found : context.currentModule.section? id = some sec) (room : context.HasRoom) :
    let after := ((directive.run fields).run context).2
    context.Reopens id sec after ∧ after.currentSection = sec := by
  have lookup := occurs.distinct.findSection? found
  suffices reopens : context.Reopens id sec ((directive.run fields).run context).2 from
    ⟨reopens, reopens.currentSection found⟩
  generalize heading : sec.heading = asked at opens
  cases opens with
  | typed other keywords valid =>
    obtain ⟨name, type, residency⟩ := Section.Heading.mk.inj heading
    rw [name, type, residency] at lookup
    exact reopens_openSection occurs.formed.seated room other keywords valid heading lookup found
  | block valid =>
    obtain ⟨name, type, residency⟩ := Section.Heading.mk.inj heading
    rw [name, type, residency] at lookup
    exact reopens_openNamed room valid lookup type (by decide)
  | common valid =>
    obtain ⟨name, type, residency⟩ := Section.Heading.mk.inj heading
    rw [name, type, residency] at lookup
    exact reopens_openNamed room valid lookup type (by decide)

end Reentering

end Asm

namespace Assembly

/-- A block that was left is opened again in pass 2, where the word placed in it has its place. -/
theorem reopens_block :
    let lines : List SourceLine := [⟨1, "         IDENT    M", false⟩,
      ⟨2, "         BLOCK    B", false⟩, ⟨3, "         CON      1", false⟩,
      ⟨4, "         BLOCK    *", false⟩, ⟨5, "L        BLOCK    B", false⟩, ⟨6, "         END", false⟩]
    let context := passTwoAfter lines "MAIN" {} ⟨"", "", ""⟩ 4
    let after := ((Directive.openBlock.run ⟨"L", "BLOCK", "B", 18⟩).run context).2
    (context.currentModule.getSection 2).heading = ⟨"B", .mixed, .cm⟩ ∧ context.HasRoom ∧
      context.sectionId.current = 0 ∧ after.sectionId.current = 2 ∧
      after.currentSection.originBits = 64 ∧
      ∀ kind, after.statement.diagnostics.contains (.error kind) ↔
        context.statement.diagnostics.contains (.error kind) := by
  intro lines context
  have occurs : Asm.Occurs context := Asm.occurs_passTwoAfter ..
  obtain ⟨heading, room, known, before, counted⟩ :
      (context.currentModule.getSection 2).heading = ⟨"B", .mixed, .cm⟩ ∧ context.HasRoom ∧
        2 < context.currentModule.sections.length ∧ context.sectionId.current = 0 ∧
        (context.currentModule.getSection 2).originBits = 64 := by
    decide +kernel
  clear_value context
  have found := Module.section?_of_lt known
  have opens : Asm.Opens .openBlock ⟨"L", "BLOCK", "B", 18⟩
      (context.currentModule.getSection 2).heading := by
    rw [heading]
    exact .block (.inr (by decide +kernel))
  obtain ⟨reopens, same⟩ := Asm.reopens_of_opens occurs opens found room
  refine ⟨heading, room, before, reopens.current, ?_, fun kind => (reopens.error_iff kind).trans ?_⟩
  · rw [same, counted]
  · refine or_iff_left fun both => ?_
    have type : SectionType.taskCom = .mixed :=
      both.2.1.symm.trans (congrArg Section.Heading.type heading)
    nomatch type

/-- A task common section is opened again, and its name is refused. -/
theorem taskCommon_refused :
    let lines : List SourceLine := [⟨1, "         IDENT    M", false⟩,
      ⟨2, "X        SECTION  TASKCOM", false⟩, ⟨3, "         BLOCK    B", false⟩]
    let again : SourceLine := ⟨4, "X        SECTION  TASKCOM", false⟩
    let context := passOneAfter lines "MAIN" {} ⟨"", "", ""⟩
    let after := ((Directive.openSection.run ⟨"X", "SECTION", "TASKCOM", 18⟩).run context).2
    (context.currentModule.getSection 2).heading = ⟨"X", .taskCom, .cm⟩ ∧ context.HasRoom ∧
      context.statement.diagnostics = .empty ∧ after.sectionId.current = 2 ∧
      after.statement.diagnostics.contains (.error .doubleDefinition) ∧
      (ofLines (lines ++ [again, ⟨5, "         END", false⟩]) "MAIN" {} ⟨"", "", ""⟩).reports =
        [⟨4, "X        SECTION  TASKCOM", [.error .doubleDefinition]⟩] := by
  decide +kernel

end Assembly

end CrayAssembler
