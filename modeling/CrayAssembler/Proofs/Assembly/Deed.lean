import CrayAssembler.Assembly.Instruction
import CrayAssembler.Proofs.Assembly.Step
import CrayAssembler.Proofs.Expr.Keys

namespace CrayAssembler

/-- The section of literals has the name that no statement can give. -/
def Module.Labelled (module : Module) : Prop :=
  (module.section? literalsSection).map (·.name) = some "="

namespace Context

/-- The module with the given place. -/
def moduleAt (context : Context) (index : Nat) : Module :=
  context.modules.getD index default

/-- The relocations of a section of the module with the given place. -/
def relocationsAt (context : Context) (index : Nat) (id : SectionId) : List Object.Relocation :=
  ((context.moduleAt index).getSection id).block.relocations

/-- The section that is current and those that are saved. -/
def selected (context : Context) : List SectionId :=
  context.sectionId.current :: context.sectionId.saved.items

def Named (context : Context) : Prop :=
  ∀ module ∈ context.modules, module.Labelled

/-- Enter a literal. -/
def refer (context : Context) (key : String) (words : List Word) : Context :=
  context.modifyModule fun module =>
    { module with literals := context.currentModule.literals.insert key words }

theorem moduleAt_of_le {context : Context} {index : Nat} (beyond : context.modules.length ≤ index) :
    context.moduleAt index = default := by
  unfold moduleAt
  rw [List.getD_eq_getElem?_getD, List.getElem?_eq_none beyond]
  rfl

theorem moduleAt_mem {context : Context} {index : Nat} (known : index < context.modules.length) :
    context.moduleAt index ∈ context.modules := by
  unfold moduleAt
  rw [List.getD_eq_getElem?_getD, List.getElem?_eq_getElem known]
  exact List.getElem_mem known

theorem moduleAt_modifyModule (context : Context) (change : Module → Module) (index : Nat) :
    (context.modifyModule change).moduleAt index =
      if context.moduleIndex = index ∧ index < context.modules.length then
        change (context.moduleAt index)
      else context.moduleAt index := by
  unfold moduleAt
  rw [List.getD_eq_getElem?_getD, List.getD_eq_getElem?_getD, getElem?_modifyModule]
  cases found : context.modules[index]? with
  | none =>
    rw [if_neg fun both => Nat.not_lt.mpr (List.getElem?_eq_none_iff.mp found) both.2]
    rfl
  | some module =>
    have known := (List.getElem?_eq_some_iff.mp found).1
    rw [Option.map_some, Option.getD_some, Option.getD_some]
    simp only [known, and_true]

/-- What relates the current module to its change relates every module to what becomes of it. -/
theorem related_modifyModule {R : Module → Module → Prop} (refl : ∀ module, R module module)
    {context : Context} {change : Module → Module}
    (changed : R context.currentModule (change context.currentModule)) (index : Nat) :
    R (context.moduleAt index) ((context.modifyModule change).moduleAt index) := by
  rw [moduleAt_modifyModule]
  split
  case isTrue both =>
    obtain ⟨rfl, -⟩ := both
    exact changed
  case isFalse => exact refl _

theorem moduleAt_of_modules {before after : Context} (modules : after.modules = before.modules)
    (index : Nat) : after.moduleAt index = before.moduleAt index := by
  unfold moduleAt
  rw [modules]

end Context

/-- A module some deeds later, if no relocation was recorded. -/
structure Module.Later (before after : Module) : Prop where
  literals : after.literals = before.literals
  ended : after.ended = before.ended
  relocations : ∀ id, (after.getSection id).block.relocations =
    (before.getSection id).block.relocations

namespace Module

theorem Later.refl (module : Module) : module.Later module :=
  ⟨rfl, rfl, fun _ => rfl⟩

theorem Later.trans {first second third : Module} (one : first.Later second)
    (two : second.Later third) : first.Later third :=
  ⟨two.literals.trans one.literals, two.ended.trans one.ended,
    fun id => (two.relocations id).trans (one.relocations id)⟩

theorem Later.of_sections {before after : Module} (sections : after.sections = before.sections)
    (literals : after.literals = before.literals) (ended : after.ended = before.ended) :
    before.Later after := by
  refine ⟨literals, ended, fun id => ?_⟩
  unfold getSection
  rw [sections]

theorem later_modifySection {module : Module} {id : SectionId} {change : Section → Section}
    (kept : (change (module.getSection id)).block.relocations =
      (module.getSection id).block.relocations) :
    module.Later (module.modifySection id change) := by
  refine ⟨rfl, rfl, fun other => ?_⟩
  rw [getSection_modifySection]
  split
  case isTrue both =>
    obtain ⟨rfl, -⟩ := both
    exact kept
  case isFalse => rfl

theorem later_make (name : String) : (default : Module).Later (make name) := by
  refine ⟨rfl, rfl, fun id => ?_⟩
  match id with
  | 0 => rfl
  | 1 => rfl
  | more + 2 => rfl

@[simp] theorem addEntry_literals (module : Module) (key : SymbolKey) :
    (module.addEntry key).literals = module.literals := by
  unfold addEntry
  split <;> rfl

@[simp] theorem addEntry_ended (module : Module) (key : SymbolKey) :
    (module.addEntry key).ended = module.ended := by
  unfold addEntry
  split <;> rfl

@[simp] theorem addExternal_literals (module : Module) (key : SymbolKey) :
    (module.addExternal key).literals = module.literals := by
  unfold addExternal
  split <;> rfl

@[simp] theorem addExternal_ended (module : Module) (key : SymbolKey) :
    (module.addExternal key).ended = module.ended := by
  unfold addExternal
  split <;> rfl

end Module

/-- A change of the current section that keeps its relocations. -/
theorem Context.later_modifySection {context : Context} {change : Section → Section}
    (kept : (change context.currentSection).block.relocations =
      context.currentSection.block.relocations) (index : Nat) :
    (context.moduleAt index).Later ((context.modifySection change).moduleAt index) :=
  related_modifyModule .refl (Module.later_modifySection kept) index

namespace Asm

/-- What a value is put in a field for. -/
inductive Use where
  | branch
  | memory
  /-- The value is loaded into a register. -/
  | load
  /-- A field of data of the given width. -/
  | data (width : Nat)
deriving DecidableEq, Repr

namespace Use

def kind : Use → Object.EntryKind
  | branch | memory | load => .standard
  | data _ => .extended

def fieldLength : Use → Nat
  | branch | memory | load => Instruction.jkmBits
  | data width => width

/-- What relocations say of the unit. -/
def parcel : Use → Bool
  | branch => true
  | memory | load | data _ => false

/-- The value whose number is put in the field, after the conversion that an instruction makes. -/
def stored : Use → Value → Value
  | branch, value => branchTarget value
  | memory, value => memoryAddress value
  | load, value | data _, value => value

/-- Record what the loader has to do to the field. -/
def record (use : Use) (value : Value) : AsmM Unit :=
  recordReference use.kind use.fieldLength (use.stored value) use.parcel

/-- The relocation that is recorded for a value, if there is one. -/
def entry? (use : Use) (value : Value) (context : Context) : Option Object.Relocation :=
  let stored := use.stored value
  if context.pass = .two ∧ !stored.isUndefined ∧ !stored.isExternal ∧ stored.isRelocatable ∧
      stored.coefficient = 1 then
    stored.home.map fun id =>
      ⟨use.kind, UInt64.ofNat id, UInt64.ofNat context.currentSection.originBits,
        UInt32.ofNat use.fieldLength, use.parcel⟩
  else none

end Use

/-- The same module of the same pass, with no object module given in between. -/
structure Level (before after : Context) : Prop where
  pass : after.pass = before.pass
  moduleIndex : after.moduleIndex = before.moduleIndex
  modulesOpened : after.modulesOpened = before.modulesOpened
  objects : after.objects = before.objects

theorem Level.trans {first second third : Context} (one : Level first second)
    (two : Level second third) : Level first third :=
  ⟨two.pass.trans one.pass, two.moduleIndex.trans one.moduleIndex,
    two.modulesOpened.trans one.modulesOpened, two.objects.trans one.objects⟩

/-- A step that does no more than statements do inside a module. -/
structure Deed (before after : Context) : Prop where
  step : Step before after
  level : Level before after
  literals : ∀ index, (after.moduleAt index).literals = (before.moduleAt index).literals
  ended : ∀ index, (after.moduleAt index).ended = (before.moduleAt index).ended
  recorded : ∀ index id, ∀ entry ∈ after.relocationsAt index id,
    entry ∈ before.relocationsAt index id ∨
      before.moduleIndex = index ∧ before.sectionId.current = id ∧
        ∃ use value, Use.entry? use value before = some entry
  selected : before.Named → ∀ id ∈ after.selected, id ∈ before.selected ∨ id ≠ literalsSection

section Deeds

variable {before after : Context}

theorem Deed.of_later (step : Step before after) (level : Level before after)
    (later : ∀ index, (before.moduleAt index).Later (after.moduleAt index))
    (selected : before.Named → ∀ id ∈ after.selected, id ∈ before.selected ∨ id ≠ literalsSection) :
    Deed before after where
  step := step
  level := level
  literals index := (later index).literals
  ended index := (later index).ended
  recorded index id entry member := by
    have same : after.relocationsAt index id = before.relocationsAt index id :=
      (later index).relocations id
    exact .inl (same ▸ member)
  selected := selected

/-- Nothing is done to modules, and the sections stay selected. -/
theorem Deed.of_modules (step : Step before after) (level : Level before after)
    (modules : after.modules = before.modules) (sectionId : after.sectionId = before.sectionId) :
    Deed before after := by
  refine .of_later step level (fun index => ?_) fun _ id member => .inl ?_
  · rw [Context.moduleAt_of_modules modules]
    exact .refl _
  · rwa [Context.selected, sectionId] at member

/-- A step that has to do with no module. -/
theorem Deed.aside {context : Context} (statement : StatementState) (qualifier : Setting String)
    (base : Setting NumeralBase) (list : Setting ListFlags) (format : Setting SourceFormat)
    (skip : Option Skip) (capture : Option Capture) (inInstruction : Bool) (tally : Tally)
    (listing : Array Listing.Item) (reports : Array Report) :
    Deed context { context with
      statement, qualifier, base, list, format, skip, capture, inInstruction, tally, listing,
      reports } :=
  .of_modules (.aside ..) ⟨rfl, rfl, rfl, rfl⟩ rfl rfl

theorem Deed.of_module {change : Module → Module}
    (step : Step before (before.modifyModule change))
    (later : before.currentModule.Later (change before.currentModule)) :
    Deed before (before.modifyModule change) :=
  .of_later step ⟨rfl, rfl, rfl, rfl⟩ (Context.related_modifyModule .refl later)
    fun _ _ member => .inl member

theorem Deed.of_section {change : Section → Section}
    (step : Step before (before.modifySection change))
    (kept : (change before.currentSection).block.relocations =
      before.currentSection.block.relocations) :
    Deed before (before.modifySection change) :=
  .of_later step ⟨rfl, rfl, rfl, rfl⟩ (Context.later_modifySection kept)
    fun _ _ member => .inl member

theorem relocations_writeBits {block written : ObjectBlock} {bitAddress width : Nat} {bits : Word}
    (accepted : block.writeBits bitAddress width bits = .ok written) :
    written.relocations = block.relocations := by
  unfold ObjectBlock.writeBits at accepted
  split at accepted
  · cases accepted
    rfl
  · nomatch accepted

theorem relocations_writeWords (block : ObjectBlock) (bitAddress : Nat) (words : List Word) :
    (block.writeWords bitAddress words).1.relocations = block.relocations := by
  induction words generalizing block bitAddress with
  | nil => rfl
  | cons word words ih =>
    unfold ObjectBlock.writeWords
    split
    case h_1 written accepted => exact (ih written _).trans (relocations_writeBits accepted)
    case h_2 => rfl

theorem Deed.addSection (name : String) (type : SectionType) (residency : Residency)
    (first : before.pass = .one) :
    Deed before (before.modifyModule fun module => module.addSection name type residency) := by
  refine .of_module (.addSection name type residency first) ⟨rfl, rfl, fun id => ?_⟩
  unfold Module.getSection Module.addSection
  dsimp only
  rw [List.getD_eq_getElem?_getD, List.getD_eq_getElem?_getD]
  by_cases known : id < before.currentModule.sections.length
  · rw [List.getElem?_append_left known]
  · have beyond := Nat.not_lt.mp known
    rw [List.getElem?_append_right beyond, List.getElem?_eq_none beyond]
    cases id - before.currentModule.sections.length <;> rfl

theorem Deed.selectSection {sectionId : Setting SectionId}
    (known : ∀ id ∈ sectionId.current :: sectionId.saved.items,
      id < before.currentModule.sections.length)
    (apart : before.Named → ∀ id ∈ sectionId.current :: sectionId.saved.items,
      id ∈ before.selected ∨ id ≠ literalsSection) :
    Deed before { before with sectionId } :=
  .of_later (.selectSection sectionId known) ⟨rfl, rfl, rfl, rfl⟩ (fun _ => .refl _) apart

theorem Deed.addModule (name : String) (first : before.pass = .one) :
    Deed before { before with modules := before.modules ++ [.make name] } := by
  refine .of_later (.addModule name first) ⟨rfl, rfl, rfl, rfl⟩ (fun index => ?_)
    fun _ id member => .inl member
  unfold Context.moduleAt
  rw [List.getD_eq_getElem?_getD, List.getD_eq_getElem?_getD]
  by_cases known : index < before.modules.length
  · rw [List.getElem?_append_left known]
    exact .refl _
  · have beyond := Nat.not_lt.mp known
    rw [List.getElem?_append_right beyond, List.getElem?_eq_none beyond]
    cases index - before.modules.length with
    | zero => exact Module.later_make name
    | succ more => exact .refl _

theorem later_emitBits (context : Context) (width : Nat) (bits : Word) (index : Nat) :
    (context.moduleAt index).Later (((emitBits width bits).run context).2.moduleAt index) := by
  unfold emitBits
  rw [StateT.run_bind, StateT.run_get, pure_bind]
  dsimp only
  split
  case h_1 block written =>
    refine Context.later_modifySection ?_ index
    rw [Section.advance_block]
    split at written
    · exact relocations_writeBits written
    · cases written
      rfl
  case h_2 =>
    exact Context.later_modifySection (congrArg (·.relocations) (Section.advance_block _ width)) index

theorem sectionId_emitBits (context : Context) (width : Nat) (bits : Word) :
    ((emitBits width bits).run context).2.sectionId = context.sectionId := by
  unfold emitBits
  rw [StateT.run_bind, StateT.run_get, pure_bind]
  dsimp only
  split <;> rfl

theorem level_emitBits (context : Context) (width : Nat) (bits : Word) :
    Level context ((emitBits width bits).run context).2 := by
  unfold emitBits
  rw [StateT.run_bind, StateT.run_get, pure_bind]
  dsimp only
  split <;> exact ⟨rfl, rfl, rfl, rfl⟩

theorem Deed.emit (context : Context) {width : Nat} (bits : Word) (narrow : width ≤ wordBits) :
    Deed context ((emitBits width bits).run context).2 := by
  refine .of_later (.emit width bits narrow) (level_emitBits context width bits)
    (later_emitBits context width bits) ?_
  intro _ id member
  rw [Context.selected, sectionId_emitBits] at member
  exact .inl member

/-- What recording comes to: an entry, or nothing that concerns relocations. -/
theorem Use.record_cases (use : Use) (value : Value) (context : Context) {after : Context}
    (recorded : ((use.record value).run context).2 = after) :
    (∃ entry, use.entry? value context = some entry ∧ after = context.modifySection fun sec =>
        { sec with block := sec.block.addRelocation entry }) ∨
      use.entry? value context = none ∧
        (after = context ∨ (∃ d, after = context.register d) ∨
          ∃ entry, after = context.modifySection fun sec =>
            { sec with block := sec.block.addExternal entry }) := by
  subst recorded
  have none (fails : ¬(context.pass = .two ∧ !(use.stored value).isUndefined ∧
      !(use.stored value).isExternal ∧ (use.stored value).isRelocatable ∧
      (use.stored value).coefficient = 1)) : use.entry? value context = none := if_neg fails
  unfold record recordReference
  rw [StateT.run_bind, StateT.run_get, pure_bind]
  dsimp only
  split
  case isTrue undefined =>
    refine .inr ⟨none fun holds => ?_, .inl rfl⟩
    rw [undefined] at holds
    nomatch holds.2.1
  case isFalse defined =>
  split
  case isTrue external =>
    refine .inr ⟨none fun holds => ?_, ?_⟩
    · rw [external] at holds
      nomatch holds.2.2.1
    split
    · exact .inr (.inl ⟨_, rfl⟩)
    split
    · split
      · exact .inr (.inr ⟨_, rfl⟩)
      · exact .inl rfl
    · exact .inl rfl
  case isFalse internal =>
  split
  case isFalse absolute => exact .inr ⟨none fun holds => absolute holds.2.2.2.1, .inl rfl⟩
  case isTrue relocatable =>
  split
  case isTrue several => exact .inr ⟨none fun holds => several holds.2.2.2.2, .inr (.inl ⟨_, rfl⟩)⟩
  case isFalse once =>
  split
  case h_1 id found =>
    split
    case isTrue second =>
      refine .inl ⟨_, ?_, rfl⟩
      unfold entry?
      dsimp only
      rw [if_pos ⟨second, by rw [Bool.eq_false_iff.mpr defined]; rfl,
        by rw [Bool.eq_false_iff.mpr internal]; rfl, relocatable, Decidable.not_not.mp once⟩, found]
      rfl
    case isFalse first => exact .inr ⟨none fun holds => first holds.1, .inl rfl⟩
  case h_2 found =>
    refine .inr ⟨?_, .inl rfl⟩
    unfold entry?
    dsimp only
    rw [found]
    split <;> rfl

/-- A field is placed, and what the loader has to do to it is recorded. -/
theorem Deed.emitReference {context : Context} (use : Use) {value : Value} {width : Nat}
    (bits : Word) (step : Step context ((do
      use.record value
      emitBits width bits : AsmM Unit).run context).2) :
    Deed context ((do
      use.record value
      emitBits width bits : AsmM Unit).run context).2 := by
  generalize middle : ((use.record value).run context).2 = recorded
  have later := later_emitBits recorded width bits
  have emitted := level_emitBits recorded width bits
  have placed : ((do
      use.record value
      emitBits width bits : AsmM Unit).run context).2 = ((emitBits width bits).run recorded).2 := by
    rw [← middle]
    rfl
  rw [placed] at step ⊢
  have selected : ∀ id ∈ ((emitBits width bits).run recorded).2.selected, id ∈ recorded.selected := by
    rw [Context.selected, sectionId_emitBits]
    exact fun _ member => member
  have unrecorded (level : Level context recorded)
      (same : ∀ index, (context.moduleAt index).Later (recorded.moduleAt index))
      (sectionId : recorded.selected = context.selected) :
      Deed context ((emitBits width bits).run recorded).2 := by
    refine .of_later step (level.trans emitted) (fun index => (same index).trans (later index))
      fun _ id member => .inl ?_
    rw [← sectionId]
    exact selected id member
  rcases use.record_cases value context middle with
    ⟨entry, found, rfl⟩ | ⟨-, rfl | ⟨d, rfl⟩ | ⟨entry, rfl⟩⟩
  · have level : Level context _ :=
      ⟨emitted.pass, emitted.moduleIndex, emitted.modulesOpened, emitted.objects⟩
    refine ⟨step, level, fun index => ?_, fun index => ?_, fun index id other member => ?_,
      fun _ id member => .inl (selected id member)⟩
    · rw [(later index).literals, Context.modifySection, Context.moduleAt_modifyModule]
      split <;> rfl
    · rw [(later index).ended, Context.modifySection, Context.moduleAt_modifyModule]
      split <;> rfl
    · rw [Context.relocationsAt, (later index).relocations id, Context.modifySection,
        Context.moduleAt_modifyModule] at member
      split at member
      case isFalse => exact .inl member
      case isTrue here =>
      rw [Module.getSection_modifySection] at member
      split at member
      case isFalse => exact .inl member
      case isTrue current =>
      rcases List.mem_append.mp member with old | new
      · exact .inl old
      · rw [List.mem_singleton.mp new]
        exact .inr ⟨here.1, current.1, use, value, found⟩
  · exact unrecorded ⟨rfl, rfl, rfl, rfl⟩ (fun index => .refl _) rfl
  · exact unrecorded ⟨rfl, rfl, rfl, rfl⟩ (fun index => .refl _) rfl
  · exact unrecorded ⟨rfl, rfl, rfl, rfl⟩ (Context.later_modifySection rfl) rfl

end Deeds

/-- A reference to a literal, and the words that its operand comes to. -/
structure Reference where
  /-- Place of the module that the reference is made in. -/
  module : Nat
  key : String
  words : List Word
deriving DecidableEq, Repr

/-- Contexts that deeds lead to, with the references to literals that are made on the way. -/
inductive Run (start : Context) : List Reference → Context → Prop
  | refl : Run start [] start
  | deed {references : List Reference} {context after : Context} :
      Run start references context → Deed context after → Run start references after
  | refer {references : List Reference} {context : Context} (key : String) (words : List Word) :
      Run start references context → words.length = LiteralPool.wordCount key →
      Run start (references ++ [⟨context.moduleIndex, key, words⟩]) (context.refer key words)

/-- Contexts that deeds and references to literals lead to. -/
def Deeds (start context : Context) : Prop :=
  ∃ references, Run start references context

section Runs

variable {start context after : Context} {references more : List Reference}

theorem Run.trans (first : Run start references context) (second : Run context more after) :
    Run start (references ++ more) after := by
  induction second with
  | refl =>
    rw [List.append_nil]
    exact first
  | deed _ deed ih => exact ih.deed deed
  | refer key words _ counted ih =>
    rw [← List.append_assoc]
    exact ih.refer key words counted

/-- Forgetting the references leaves a chain of steps. -/
theorem Run.steps (run : Run start references context) : Steps start context := by
  induction run with
  | refl => exact .refl
  | deed _ deed ih => exact ih.tail deed.step
  | refer key words _ _ ih => exact ih.tail (.intern key words)

theorem Run.level (run : Run start references context) : Level start context := by
  induction run with
  | refl => exact ⟨rfl, rfl, rfl, rfl⟩
  | deed _ deed ih => exact ih.trans deed.level
  | refer key words _ _ ih => exact ih.trans ⟨rfl, rfl, rfl, rfl⟩

theorem Run.ended (run : Run start references context) (index : Nat) :
    (context.moduleAt index).ended = (start.moduleAt index).ended := by
  induction run with
  | refl => rfl
  | deed _ deed ih => exact (deed.ended index).trans ih
  | refer key words _ _ ih =>
    rw [← ih, Context.refer, Context.moduleAt_modifyModule]
    split <;> rfl

theorem Deeds.refl : Deeds start start := ⟨[], .refl⟩

theorem Deeds.tail (deeds : Deeds start context) (deed : Deed context after) : Deeds start after :=
  deeds.imp fun _ run => run.deed deed

theorem Deeds.single (deed : Deed start context) : Deeds start context := Deeds.refl.tail deed

theorem Deeds.trans (first : Deeds start context) (second : Deeds context after) :
    Deeds start after := by
  obtain ⟨references, first⟩ := first
  obtain ⟨more, second⟩ := second
  exact ⟨_, first.trans second⟩

theorem Deeds.refer (deeds : Deeds start context) {key : String} {words : List Word}
    (counted : words.length = LiteralPool.wordCount key) :
    Deeds start (context.refer key words) := by
  obtain ⟨references, run⟩ := deeds
  exact ⟨_, run.refer key words counted⟩

end Runs

end Asm

end CrayAssembler
