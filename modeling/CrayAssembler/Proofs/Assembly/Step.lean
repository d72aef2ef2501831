import CrayAssembler.Assembly.Emit
import CrayAssembler.Proofs.Module.Sound
import Mathlib.Logic.Relation

namespace CrayAssembler

/-- The second section is the first one later in a pass. -/
structure Section.Ahead (before after : Section) : Prop where
  origin_le : before.originBits ≤ after.originBits
  high_le : before.highBits ≤ after.highBits

theorem Section.Ahead.refl (sec : Section) : sec.Ahead sec :=
  ⟨Nat.le_refl _, Nat.le_refl _⟩

theorem Section.Ahead.trans {first second third : Section} (one : first.Ahead second)
    (two : second.Ahead third) : first.Ahead third :=
  ⟨Nat.le_trans one.origin_le two.origin_le, Nat.le_trans one.high_le two.high_le⟩

/-- No section of the first module is gone or has gone back in the second. -/
def Module.Ahead (before after : Module) : Prop :=
  ∀ id sec, before.section? id = some sec → ∃ later, after.section? id = some later ∧ sec.Ahead later

theorem Module.Ahead.of_sections {before after : Module} (same : after.sections = before.sections) :
    before.Ahead after := by
  intro id sec found
  refine ⟨sec, ?_, .refl sec⟩
  rw [section?, same]
  exact found

theorem Module.Ahead.trans {first second third : Module} (one : first.Ahead second)
    (two : second.Ahead third) : first.Ahead third := by
  intro id sec found
  obtain ⟨middle, inMiddle, firstPart⟩ := one id sec found
  obtain ⟨last, inLast, secondPart⟩ := two id middle inMiddle
  exact ⟨last, inLast, firstPart.trans secondPart⟩

theorem Module.section?_modifySection (module : Module) (id other : SectionId)
    (change : Section → Section) :
    (module.modifySection id change).section? other =
      (module.section? other).map fun sec => if id = other then change sec else sec :=
  List.getElem?_modify ..

theorem Module.ahead_modifySection (module : Module) (id : SectionId) {change : Section → Section}
    (forward : ∀ sec, module.section? id = some sec → sec.Ahead (change sec)) :
    module.Ahead (module.modifySection id change) := by
  intro other sec found
  rw [section?_modifySection, found]
  refine ⟨_, rfl, ?_⟩
  split
  case isTrue same => exact forward sec (same ▸ found)
  case isFalse => exact .refl sec

theorem Module.ahead_addSection (module : Module) (name : String) (type : SectionType)
    (residency : Residency) : module.Ahead (module.addSection name type residency) := by
  intro id sec found
  exact ⟨sec, (List.getElem?_append_left (section?_lt found)).trans found, .refl sec⟩

@[simp] theorem Module.addEntry_sections (module : Module) (key : SymbolKey) :
    (module.addEntry key).sections = module.sections := by
  unfold addEntry
  split <;> rfl

@[simp] theorem Module.addEntry_externals (module : Module) (key : SymbolKey) :
    (module.addEntry key).externals = module.externals := by
  unfold addEntry
  split <;> rfl

theorem Section.ahead_advance (sec : Section) (block : ObjectBlock) (bits : Nat) :
    sec.Ahead ({ sec with block }.advance bits) := by
  rcases Nat.eq_zero_or_pos bits with rfl | positive
  · exact ⟨Nat.le_refl _, Nat.le_refl _⟩
  · rw [advance_of_pos _ positive]
    exact ⟨Nat.le_add_right _ _, Nat.le_max_left _ _⟩

theorem Module.ahead_placeLiterals {module : Module} (sound : module.Sound) :
    module.Ahead module.placeLiterals.1 := by
  refine module.ahead_modifySection literalsSection fun sec found => ?_
  rw [section?_of_lt sound.literals_lt] at found
  rw [← Option.some.inj found]
  exact Section.ahead_advance ..

namespace Context

/-- No section of the first context is gone or has gone back in the second. -/
def Ahead (before after : Context) : Prop :=
  ∀ (index : Nat) (module : Module), before.modules[index]? = some module →
    ∃ later : Module, after.modules[index]? = some later ∧ module.Ahead later

theorem Ahead.of_modules {before after : Context} (same : after.modules = before.modules) :
    before.Ahead after := by
  intro index module found
  rw [same]
  exact ⟨module, found, .of_sections rfl⟩

theorem Ahead.trans {first second third : Context} (one : first.Ahead second)
    (two : second.Ahead third) : first.Ahead third := by
  intro index module found
  obtain ⟨middle, inMiddle, firstPart⟩ := one index module found
  obtain ⟨last, inLast, secondPart⟩ := two index middle inMiddle
  exact ⟨last, inLast, firstPart.trans secondPart⟩

/-- Some section was filled beyond what a word can count. -/
def Overrun (context : Context) : Prop :=
  ∃ module ∈ context.modules, ∃ sec ∈ module.sections, ¬sec.Counted

theorem Overrun.later {before after : Context} (overrun : before.Overrun)
    (ahead : before.Ahead after) : after.Overrun := by
  obtain ⟨module, inModules, sec, inSections, beyond⟩ := overrun
  obtain ⟨index, found⟩ := List.getElem?_of_mem inModules
  obtain ⟨later, inLater, forward⟩ := ahead index module found
  obtain ⟨id, lookup⟩ := List.getElem?_of_mem inSections
  obtain ⟨last, inLast, furtherOn⟩ := forward id sec lookup
  refine ⟨later, List.mem_of_getElem? inLater, last, List.mem_of_getElem? inLast, fun counted => ?_⟩
  exact beyond (Nat.lt_of_le_of_lt furtherOn.high_le counted)

/-- What holds of a context between any two steps. -/
structure Sound (context : Context) : Prop where
  modules : ∀ module ∈ context.modules, module.Sound
  current_lt : context.moduleIndex < context.modules.length
  sections_lt : ∀ id ∈ context.sectionId.current :: context.sectionId.saved.items,
    id < context.currentModule.sections.length
  objects : ∀ object ∈ context.objects, object.Fits ∨ context.Overrun
  unfinished : context.pass = .one → context.objects = #[]

variable {context : Context}

theorem modules_of_current (current : context.moduleIndex < context.modules.length) :
    context.modules[context.moduleIndex]? = some context.currentModule := by
  unfold currentModule
  rw [List.getD_eq_getElem?_getD, List.getElem?_eq_getElem current, Option.getD_some]

theorem Sound.currentModule (sound : context.Sound) : context.currentModule.Sound :=
  sound.modules _ (List.mem_of_getElem? (modules_of_current sound.current_lt))

theorem getElem?_modifyModule (context : Context) (change : Module → Module) (index : Nat) :
    (context.modifyModule change).modules[index]? = (context.modules[index]?).map fun module =>
      if context.moduleIndex = index then change module else module :=
  List.getElem?_modify ..

theorem currentModule_modifyModule (current : context.moduleIndex < context.modules.length)
    (change : Module → Module) :
    (context.modifyModule change).currentModule = change context.currentModule := by
  unfold Context.currentModule
  rw [List.getD_eq_getElem?_getD, getElem?_modifyModule]
  change (Option.map _ context.modules[context.moduleIndex]?).getD default = _
  rw [modules_of_current current, Option.map_some, Option.getD_some]
  exact if_pos rfl

theorem ahead_modifyModule {change : Module → Module}
    (forward : context.moduleIndex < context.modules.length →
      context.currentModule.Ahead (change context.currentModule)) :
    context.Ahead (context.modifyModule change) := by
  intro index module found
  rw [getElem?_modifyModule, found]
  refine ⟨_, rfl, ?_⟩
  split
  case isTrue same =>
    subst same
    have current := (List.getElem?_eq_some_iff.mp found).1
    obtain rfl : context.currentModule = module :=
      Option.some.inj ((modules_of_current current).symm.trans found)
    exact forward current
  case isFalse => exact .of_sections rfl

theorem Sound.objects_later (sound : context.Sound) {after : Context}
    (ahead : context.Ahead after) :
    ∀ object ∈ context.objects, object.Fits ∨ after.Overrun := by
  intro object member
  exact (sound.objects object member).imp_right (·.later ahead)

/-- A change of the current module that keeps it sound and moves nothing back. -/
theorem Sound.modifyModule (sound : context.Sound) {change : Module → Module}
    (changed : (change context.currentModule).Sound)
    (forward : context.currentModule.Ahead (change context.currentModule))
    (more : context.currentModule.sections.length ≤
      (change context.currentModule).sections.length) :
    (context.modifyModule change).Sound where
  modules := by
    intro module member
    obtain ⟨index, found⟩ := List.getElem?_of_mem member
    rw [getElem?_modifyModule] at found
    obtain ⟨old, lookup, rfl⟩ := Option.map_eq_some_iff.mp found
    split
    case isTrue same =>
      subst same
      obtain rfl : context.currentModule = old :=
        Option.some.inj ((modules_of_current sound.current_lt).symm.trans lookup)
      exact changed
    case isFalse => exact sound.modules old (List.mem_of_getElem? lookup)
  current_lt := by
    have length : (context.modifyModule change).modules.length = context.modules.length :=
      List.length_modify ..
    rw [length]
    exact sound.current_lt
  sections_lt := by
    rw [currentModule_modifyModule sound.current_lt]
    exact fun id member => Nat.lt_of_lt_of_le (sound.sections_lt id member) more
  objects := sound.objects_later (ahead_modifyModule fun _ => forward)
  unfinished := sound.unfinished

theorem Sound.currentSection (sound : context.Sound) :
    context.currentModule.section? context.sectionId.current = some context.currentSection :=
  Module.section?_of_lt (sound.sections_lt _ List.mem_cons_self)

theorem Sound.currentSection_sound (sound : context.Sound) :
    context.currentSection.Sound context.currentModule.sections.length
      context.currentModule.externals.length :=
  sound.currentModule.sections _ (Module.mem_of_section? sound.currentSection)

/-- One step further on, everything still holds and nothing has gone back. -/
def Leads (before after : Context) : Prop := after.Sound ∧ before.Ahead after

theorem Sound.leads_modifyModule (sound : context.Sound) {change : Module → Module}
    (changed : (change context.currentModule).Sound)
    (forward : context.currentModule.Ahead (change context.currentModule))
    (more : context.currentModule.sections.length ≤
      (change context.currentModule).sections.length) :
    context.Leads (context.modifyModule change) :=
  ⟨sound.modifyModule changed forward more, ahead_modifyModule fun _ => forward⟩

/-- Sections stay as they are, and the module stays sound. -/
theorem Sound.leads_sameSections (sound : context.Sound) {change : Module → Module}
    (changed : (change context.currentModule).Sound)
    (same : (change context.currentModule).sections = context.currentModule.sections) :
    context.Leads (context.modifyModule change) :=
  sound.leads_modifyModule changed (.of_sections same)
    (Nat.le_of_eq (congrArg List.length same).symm)

theorem Sound.leads_modifySection (sound : context.Sound) {change : Section → Section}
    (changed : (change context.currentSection).Sound context.currentModule.sections.length
      context.currentModule.externals.length)
    (forward : context.currentSection.Ahead (change context.currentSection)) :
    context.Leads (context.modifySection change) := by
  have only : ∀ sec, context.currentModule.section? context.sectionId.current = some sec →
      sec = context.currentSection := fun sec found =>
    Option.some.inj (found.symm.trans sound.currentSection)
  refine sound.leads_modifyModule (sound.currentModule.modifySection ?_)
    (Module.ahead_modifySection _ _ ?_) ?_
  · intro sec found
    rw [only sec found]
    exact changed
  · intro sec found
    rw [only sec found]
    exact forward
  · exact Nat.le_of_eq (Module.length_modifySection ..).symm

theorem modifySection_modifySection (context : Context) (first second : Section → Section) :
    (context.modifySection first).modifySection second =
      context.modifySection (second ∘ first) := by
  unfold modifySection modifyModule
  rw [List.modify_modify_eq]
  congr 2
  funext module
  exact congrArg (fun sections => { module with sections }) (List.modify_modify_eq ..)

theorem currentSection_modifySection (sound : context.Sound) (change : Section → Section) :
    (context.modifySection change).currentSection = change context.currentSection := by
  unfold modifySection Context.currentSection
  rw [currentModule_modifyModule sound.current_lt]
  have found := Module.section?_modifySection context.currentModule context.sectionId.current
    context.sectionId.current change
  rw [sound.currentSection, Option.map_some, if_pos rfl] at found
  rw [Module.section?_of_lt (Module.section?_lt found)] at found
  exact Option.some.inj found

end Context

namespace Asm

/-- A chain of the steps that assemblies are made of is what a statement does. -/
inductive Step (context : Context) : Context → Prop
  /-- Nothing that concerns modules. -/
  | aside (statement : StatementState) (qualifier : Setting String) (base : Setting NumeralBase)
      (list : Setting ListFlags) (format : Setting SourceFormat) (skip : Option Skip)
      (capture : Option Capture) (inInstruction : Bool) (tally : Tally)
      (listing : Array Listing.Item) (reports : Array Report) :
      Step context { context with
        statement, qualifier, base, list, format, skip, capture, inInstruction, tally, listing,
        reports }
  /-- The parts of a module that have to do with neither sections nor symbols. -/
  | describe (change : Module → Module)
      (kept : ∀ module, (change module).name = module.name ∧
        (change module).sections = module.sections ∧ (change module).symbols = module.symbols ∧
        (change module).literals = module.literals ∧
        (change module).externals = module.externals) :
      Step context (context.modifyModule change)
  | mention (key : SymbolKey) :
      Step context (context.modifyModule fun module =>
        { module with symbols := context.currentModule.symbols.mention key })
  | define (key : SymbolKey) (value : Value) (redefinable : Bool) (symbols : SymbolTable)
      (refers : value.Refers context.currentModule.sections.length
        context.currentModule.externals.length)
      (made : context.currentModule.symbols.define key value redefinable context.pass =
        .ok symbols) :
      Step context (context.modifyModule fun module => { module with symbols })
  | declareEntry (key : SymbolKey) :
      Step context (context.modifyModule fun module =>
        { module.addEntry key with symbols := module.symbols.markEntry key })
  | declareExternal (key : SymbolKey) (symbols : SymbolTable)
      (made : context.currentModule.symbols.makeExternal key
        (context.currentModule.externalIndex key) = .ok symbols) :
      Step context (context.modifyModule fun module => { module.addExternal key with symbols })
  | intern (key : String) (words : List Word) :
      Step context (context.modifyModule fun module =>
        { module with literals := context.currentModule.literals.insert key words })
  | emit (width : Nat) (bits : Word) (narrow : width ≤ wordBits) :
      Step context ((emitBits width bits).run context).2
  /-- A reference is recorded together with the field that it is for. -/
  | emitReference (kind : Object.EntryKind) (fieldLength : Nat) (value : Value) (parcel : Bool)
      (width : Nat) (bits : Word)
      (refers : value.Refers context.currentModule.sections.length
        context.currentModule.externals.length)
      (holds : context.currentSection.type.allowsImage) (inside : fieldLength ≤ width)
      (positive : 0 < width) (narrow : width ≤ wordBits) :
      Step context ((do
        recordReference kind fieldLength value parcel
        emitBits width bits : AsmM Unit).run context).2
  | reserve (bits : Nat) : Step context (context.modifySection (·.advance bits))
  | setLocation (word : Nat) (aligned : context.currentSection.originBits % wordBits = 0)
      (ahead : context.currentSection.locationWord ≤ word) :
      Step context (context.modifySection (·.setLocationWord word))
  | setOrigin (word : Nat) (aligned : context.currentSection.originBits % wordBits = 0)
      (ahead : context.currentSection.originWord ≤ word) :
      Step context (context.modifySection fun sec => { sec.setOriginWord word with placed := true })
  | addSection (name : String) (type : SectionType) (residency : Residency)
      (first : context.pass = .one) :
      Step context (context.modifyModule fun module => module.addSection name type residency)
  | selectSection (sectionId : Setting SectionId)
      (known : ∀ id ∈ sectionId.current :: sectionId.saved.items,
        id < context.currentModule.sections.length) :
      Step context { context with sectionId }
  | addModule (name : String) (first : context.pass = .one) :
      Step context { context with modules := context.modules ++ [.make name] }
  | enter (index : Nat) (known : index < context.modules.length) :
      Step context { context.resetModuleState with
        moduleIndex := index, modulesOpened := context.modulesOpened + 1 }
  | leave : Step context { context.resetModuleState with moduleIndex := Context.anonymousModule }
  | placeLiterals :
      Step context (context.modifyModule fun _ =>
        { context.currentModule.placeLiterals.1 with ended := true })
  | produce (second : context.pass = .two) :
      Step context { context with objects := context.objects.push context.currentModule.toObject }

variable {context : Context}

/-- What placing bits comes to: they are never refused. -/
theorem emitBits_eq (framed : ∀ image, context.currentSection.block.image = some image →
      context.currentSection.Framed image) (width : Nat) (bits : Word) :
    ∃ block, ((emitBits width bits).run context).2 =
        context.modifySection (fun sec => { sec with block }.advance width) ∧
      if context.pass = .two && context.currentSection.type.allowsImage then
        context.currentSection.block.writeBits context.currentSection.originBits width bits =
          .ok block
      else block = context.currentSection.block := by
  unfold emitBits
  by_cases writes : (decide (context.pass = .two) && context.currentSection.type.allowsImage) = true
  · obtain ⟨block, written⟩ := Section.writeBits_accepted framed width bits
    refine ⟨block, ?_, by rw [if_pos writes]; exact written⟩
    simp only [StateT.run_bind, StateT.run_get, pure_bind, writes, if_true, written]
    rfl
  · refine ⟨context.currentSection.block, ?_, by rw [if_neg writes]⟩
    simp only [StateT.run_bind, StateT.run_get, pure_bind, writes]
    rfl

/-- What recording a reference comes to. An entry is made in pass 2 only, and names what the value
refers to. -/
theorem recordReference_cases (context : Context) (kind : Object.EntryKind) (fieldLength : Nat)
    (value : Value) (parcel : Bool) {after : Context}
    (recorded : ((recordReference kind fieldLength value parcel).run context).2 = after) :
    after = context ∨ (∃ d, after = context.register d) ∨
      context.pass = .two ∧
        ((∃ id, value.home = some id ∧ after = context.modifySection fun sec =>
          { sec with block := sec.block.addRelocation ⟨kind, UInt64.ofNat id,
            UInt64.ofNat context.currentSection.originBits, UInt32.ofNat fieldLength, parcel⟩ }) ∨
        ∃ index, value.external = some index ∧ after = context.modifySection fun sec =>
          { sec with block := sec.block.addExternal ⟨kind, UInt64.ofNat index,
            UInt64.ofNat context.currentSection.originBits, UInt32.ofNat fieldLength, parcel⟩ }) := by
  subst recorded
  unfold recordReference
  rw [StateT.run_bind, StateT.run_get, pure_bind]
  dsimp only
  split
  · exact .inl rfl
  split
  · split
    · exact .inr (.inl ⟨_, rfl⟩)
    split
    case h_1 index found =>
      split
      case isTrue second => exact .inr (.inr ⟨second, .inr ⟨index, found, rfl⟩⟩)
      case isFalse => exact .inl rfl
    case h_2 => exact .inl rfl
  split
  · split
    · exact .inr (.inl ⟨_, rfl⟩)
    split
    case h_1 id found =>
      split
      case isTrue second => exact .inr (.inr ⟨second, .inl ⟨id, found, rfl⟩⟩)
      case isFalse => exact .inl rfl
    case h_2 => exact .inl rfl
  exact .inl rfl

theorem leads_emitBits (sound : context.Sound) {width : Nat} (bits : Word)
    (narrow : width ≤ wordBits) : context.Leads ((emitBits width bits).run context).2 := by
  have current := sound.currentSection_sound
  obtain ⟨block, result, written⟩ := emitBits_eq current.framed width bits
  rw [result]
  refine sound.leads_modifySection ?_ (Section.ahead_advance _ _ _)
  split at written
  · exact current.write narrow written
  · rw [written]
    exact current.advance width

/-- Bits are placed after an entry was added to the tables, if the entry fits what is then
written. -/
theorem leads_emitBits_after (sound : context.Sound) {add : ObjectBlock → ObjectBlock}
    (change : Section.TableChange add) {width : Nat} (bits : Word) (second : context.pass = .two)
    (holds : context.currentSection.type.allowsImage)
    (fits : ∀ block, context.currentSection.block.writeBits context.currentSection.originBits width
        bits = .ok block →
      ({ context.currentSection with block := add block }.advance width : Section).Sound
        context.currentModule.sections.length context.currentModule.externals.length) :
    context.Leads ((emitBits width bits).run
      (context.modifySection fun sec => { sec with block := add sec.block })).2 := by
  have current := sound.currentSection_sound
  obtain ⟨block, written⟩ := Section.writeBits_accepted current.framed width bits
  have middle := Context.currentSection_modifySection sound
    fun sec => { sec with block := add sec.block }
  have framed : ∀ image, (context.modifySection fun sec =>
      { sec with block := add sec.block }).currentSection.block.image = some image →
      (context.modifySection fun sec =>
        { sec with block := add sec.block }).currentSection.Framed image := by
    rw [middle]
    intro image found
    have framed := current.framed image ((change.image_eq _).symm.trans found)
    exact ⟨framed.first_le, framed.base_lt, framed.base_le, framed.stop_le⟩
  obtain ⟨new, result, placed⟩ := emitBits_eq framed width bits
  rw [middle, if_pos (by rw [Bool.and_eq_true]; exact ⟨decide_eq_true second, holds⟩)] at placed
  have same : new = add block := by
    have mapped := change.writeBits_eq context.currentSection.block
      context.currentSection.originBits width bits
    rw [written] at mapped
    exact Except.ok.inj (placed.symm.trans mapped)
  rw [result, Context.modifySection_modifySection, same]
  exact sound.leads_modifySection (fits block written) (Section.ahead_advance _ _ _)

/-- A reference and its field are placed together. The entry is covered by what is then written. -/
theorem leads_emitReference (sound : context.Sound) (kind : Object.EntryKind)
    {fieldLength : Nat} {value : Value} (parcel : Bool) {width : Nat} (bits : Word)
    (refers : value.Refers context.currentModule.sections.length
      context.currentModule.externals.length)
    (holds : context.currentSection.type.allowsImage) (inside : fieldLength ≤ width)
    (positive : 0 < width) (narrow : width ≤ wordBits) :
    context.Leads ((do
      recordReference kind fieldLength value parcel
      emitBits width bits : AsmM Unit).run context).2 := by
  have current := sound.currentSection_sound
  have length : (UInt32.ofNat fieldLength).toNat ≤ width := by
    rw [UInt32.toNat_ofNat']
    exact Nat.le_trans (Nat.mod_le _ _) inside
  change context.Leads ((emitBits width bits).run
    ((recordReference kind fieldLength value parcel).run context).2).2
  generalize recorded : ((recordReference kind fieldLength value parcel).run context).2 = after
  obtain rfl | ⟨d, rfl⟩ | ⟨second, ⟨id, found, rfl⟩ | ⟨index, found, rfl⟩⟩ :=
    recordReference_cases context kind fieldLength value parcel recorded
  · exact leads_emitBits sound bits narrow
  · have registered : (context.register d).Sound := ⟨sound.modules, sound.current_lt,
      sound.sections_lt, sound.objects, sound.unfinished⟩
    exact leads_emitBits registered bits narrow
  · refine leads_emitBits_after sound (Section.tableChange_addRelocation _) bits second holds ?_
    intro block written
    exact current.writeRelocation positive narrow written rfl length
      ⟨id, refers.home_lt id found, rfl⟩
  · refine leads_emitBits_after sound (Section.tableChange_addExternal _) bits second holds ?_
    intro block written
    exact current.writeExternal positive narrow written rfl length
      ⟨index, refers.external_lt index found, rfl⟩

theorem leads_addModule (sound : context.Sound) (name : String) :
    context.Leads { context with modules := context.modules ++ [.make name] } := by
  have ahead : context.Ahead { context with modules := context.modules ++ [.make name] } := by
    intro index module found
    have known := (List.getElem?_eq_some_iff.mp found).1
    exact ⟨module, (List.getElem?_append_left known).trans found, .of_sections rfl⟩
  have current : Context.currentModule { context with modules := context.modules ++ [.make name] } =
      context.currentModule := by
    unfold Context.currentModule
    rw [List.getD_eq_getElem?_getD, List.getD_eq_getElem?_getD]
    exact congrArg (·.getD default) (List.getElem?_append_left sound.current_lt)
  refine ⟨⟨?_, ?_, ?_, sound.objects_later ahead, sound.unfinished⟩, ahead⟩
  · intro module member
    rcases List.mem_append.mp member with old | new
    · exact sound.modules module old
    · rw [List.mem_singleton.mp new]
      exact Module.sound_make name
  · change context.moduleIndex < (context.modules ++ [_]).length
    rw [List.length_append]
    exact Nat.lt_add_right _ sound.current_lt
  · rw [current]
    exact sound.sections_lt

theorem leads_enter (sound : context.Sound) {index : Nat} (known : index < context.modules.length)
    (opened : Nat) :
    context.Leads { context.resetModuleState with moduleIndex := index, modulesOpened := opened } := by
  refine ⟨⟨sound.modules, known, ?_, sound.objects, sound.unfinished⟩, .of_modules rfl⟩
  intro id member
  rw [List.mem_singleton.mp member]
  have found := List.getElem?_eq_getElem known
  have entered : Context.currentModule { context.resetModuleState with
      moduleIndex := index, modulesOpened := opened } = context.modules.get ⟨index, known⟩ := by
    unfold Context.currentModule
    rw [List.getD_eq_getElem?_getD]
    change (context.modules[index]?).getD default = _
    rw [found]
    rfl
  rw [entered]
  exact Nat.lt_of_le_of_lt (Nat.zero_le _) (sound.modules _ (List.get_mem _ _)).literals_lt

/-- Every step keeps a context sound, and no section goes back. -/
theorem Step.leads {after : Context} (step : Step context after) (sound : context.Sound) :
    context.Leads after := by
  have current := sound.currentSection_sound
  have module := sound.currentModule
  cases step with
  | aside =>
    exact ⟨⟨sound.modules, sound.current_lt, sound.sections_lt, sound.objects, sound.unfinished⟩,
      .of_modules rfl⟩
  | describe change kept =>
    obtain ⟨-, sections, symbols, -, externals⟩ := kept context.currentModule
    exact sound.leads_sameSections (module.of_same sections symbols externals) sections
  | mention key =>
    exact sound.leads_sameSections (module.withSymbols (module.symbols.mention key)) rfl
  | define key value redefinable symbols refers made =>
    exact sound.leads_sameSections (module.withSymbols (module.symbols.define refers made)) rfl
  | declareEntry key =>
    have marked := module.withSymbols (module.symbols.markEntry key)
    exact sound.leads_sameSections (marked.of_same (Module.addEntry_sections _ _) rfl
      (Module.addEntry_externals _ _)) (Module.addEntry_sections _ _)
  | declareExternal key symbols made =>
    exact sound.leads_sameSections (module.declareExternal made) (Module.addExternal_sections _ _)
  | intern key words => exact sound.leads_sameSections (module.of_same rfl rfl rfl) rfl
  | emit width bits narrow => exact leads_emitBits sound bits narrow
  | emitReference kind fieldLength value parcel width bits refers holds inside positive narrow =>
    exact leads_emitReference sound kind parcel bits refers holds inside positive narrow
  | reserve bits => exact sound.leads_modifySection (current.advance bits) (Section.ahead_advance _ _ _)
  | setLocation word aligned ahead =>
    exact sound.leads_modifySection (current.setLocationWord aligned word)
      ⟨Nat.le_refl _, Nat.le_refl _⟩
  | setOrigin word aligned ahead =>
    exact sound.leads_modifySection (current.setOriginWord aligned ahead)
      ⟨Section.originBits_le_word aligned ahead, Nat.le_max_left _ _⟩
  | addSection name type residency first =>
    refine sound.leads_modifyModule (module.addSection name type residency)
      (Module.ahead_addSection _ name type residency) ?_
    change _ ≤ (context.currentModule.sections ++ [_]).length
    rw [List.length_append]
    exact Nat.le_add_right _ _
  | selectSection sectionId known =>
    exact ⟨⟨sound.modules, sound.current_lt, known, sound.objects, sound.unfinished⟩,
      .of_modules rfl⟩
  | addModule name first => exact leads_addModule sound name
  | enter index known => exact leads_enter sound known _
  | leave => exact leads_enter sound (Nat.lt_of_le_of_lt (Nat.zero_le _) sound.current_lt) _
  | placeLiterals =>
    refine sound.leads_modifyModule (module.placeLiterals.2.of_same rfl rfl rfl)
      (Module.ahead_placeLiterals module) ?_
    exact Nat.le_of_eq (Module.length_modifySection ..).symm
  | produce second =>
    refine ⟨⟨sound.modules, sound.current_lt, sound.sections_lt, ?_, ?_⟩, .of_modules rfl⟩
    · intro object member
      rcases Array.mem_push.mp member with old | rfl
      · exact sound.objects object old
      · by_cases counted : ∀ sec ∈ context.currentModule.sections, sec.Counted
        · exact .inl (module.toObject_fits counted)
        · simp only [Classical.not_forall] at counted
          obtain ⟨sec, inside, beyond⟩ := counted
          exact .inr ⟨_, List.mem_of_getElem? (Context.modules_of_current sound.current_lt), sec,
            inside, beyond⟩
    · intro first
      exact nomatch first.symm.trans second

/-- Contexts that steps lead to. -/
abbrev Steps : Context → Context → Prop := Relation.ReflTransGen Step

theorem Steps.leads {before after : Context} (steps : Steps before after) (sound : before.Sound) :
    before.Leads after := by
  induction steps with
  | refl => exact ⟨sound, .of_modules rfl⟩
  | tail _ step ih =>
    have next := step.leads ih.1
    exact ⟨next.1, ih.2.trans next.2⟩

end Asm

end CrayAssembler
