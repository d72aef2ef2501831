import CrayAssembler.Proofs.Assembly.Literals
import CrayAssembler.Proofs.Assembly.Traits
import CrayAssembler.Proofs.Value.Rigid

namespace CrayAssembler

/-- An absolute module none of whose symbols holds a relocatable address. -/
structure Module.Rigid (module : Module) : Prop where
  absolute : module.absolute = true
  symbols : module.symbols.Rigid

instance (module : Module) : Decidable module.Rigid :=
  decidable_of_iff (module.absolute = true ∧ module.symbols.Rigid)
    ⟨fun both => ⟨both.1, both.2⟩, fun rigid => ⟨rigid.absolute, rigid.symbols⟩⟩

/-- A rigid module all of whose tables of relocations have a property. -/
structure Module.Tabled (T : List Object.Relocation → Prop) (module : Module) : Prop where
  rigid : module.Rigid
  tables : ∀ sec ∈ module.sections, T sec.block.relocations

theorem Value.closed_rigid : Value.Closed Value.Rigid where
  absolute := rigid_absolute
  float := rigid_float
  undefined := rigid_undefined
  unary op _ _ rigid computed := rigid.unary op computed
  binary op _ _ _ left right computed := left.binary op right computed
  used rigid := rigid.of_same rfl
  convert _ _ _ rigid := rigid.of_same rfl

namespace Module

variable {T : List Object.Relocation → Prop} {module other : Module}

/-- Symbols are changed, and neither the sections nor the kind of the module. -/
theorem Tabled.withSymbols (tabled : module.Tabled T) (rigid : other.symbols.Rigid)
    (sections : other.sections = module.sections) (absolute : other.absolute = module.absolute) :
    other.Tabled T := by
  refine ⟨⟨absolute.trans tabled.rigid.absolute, rigid⟩, ?_⟩
  rw [sections]
  exact tabled.tables

theorem Tabled.modifySection (tabled : module.Tabled T) {id : SectionId}
    {change : Section → Section}
    (kept : ∀ sec, module.section? id = some sec →
      (change sec).block.relocations = sec.block.relocations) :
    (module.modifySection id change).Tabled T := by
  refine ⟨⟨tabled.rigid.absolute, tabled.rigid.symbols⟩, fun sec member => ?_⟩
  obtain ⟨place, found⟩ := List.getElem?_of_mem member
  rw [show (module.modifySection id change).sections[place]? = _ from
    Module.section?_modifySection ..] at found
  obtain ⟨old, lookup, rfl⟩ := Option.map_eq_some_iff.mp found
  have before := tabled.tables old (mem_of_section? lookup)
  split
  case isTrue same =>
    rw [kept old (same ▸ lookup)]
    exact before
  case isFalse => exact before

/-- Rigidity is handed on, whatever is said of the tables besides. -/
def rigidity (T : List Object.Relocation → Prop) (blank : T []) : Trait where
  ofModule := Tabled T
  ofValue := Value.Rigid
  values := Value.closed_rigid
  symbol key _ tabled := tabled.rigid.symbols key
  address _ _ _ _ tabled := congrArg (!·) tabled.rigid.absolute
  literal rigid := rigid.of_same rfl
  mention key _ tabled := tabled.withSymbols (tabled.rigid.symbols.mention key) rfl rfl
  define tabled rigid made := tabled.withSymbols (tabled.rigid.symbols.define rigid made) rfl rfl
  declareEntry key module tabled := tabled.withSymbols (tabled.rigid.symbols.markEntry key)
    (addEntry_sections module key) (addEntry_absolute module key)
  declareExternal {module key _} tabled made :=
    tabled.withSymbols (tabled.rigid.symbols.makeExternal made)
      (addExternal_sections module key) (addExternal_absolute module key)
  addSection name type residency module tabled _ := by
    refine ⟨⟨tabled.rigid.absolute, tabled.rigid.symbols⟩, fun sec member => ?_⟩
    rcases List.mem_append.mp member with old | new
    · exact tabled.tables sec old
    · rw [List.mem_singleton.mp new]
      exact blank
  place tabled kept := tabled.modifySection fun sec found => (kept sec found).relocations
  relocate _ _ _ _ _ rigid relocatable := by
    rw [rigid.isRelocatable] at relocatable
    nomatch relocatable
  describe tabled symbols sections _ absolute := by
    refine ⟨⟨absolute tabled.rigid.absolute, ?_⟩, ?_⟩
    · rw [symbols]
      exact tabled.rigid.symbols
    · rw [sections]
      exact tabled.tables

theorem Rigid.declareImplicitExternals (rigid : module.Rigid) :
    module.declareImplicitExternals.Rigid := by
  unfold Module.declareImplicitExternals
  generalize module.symbols.undefined = keys
  induction keys generalizing module with
  | nil => exact rigid
  | cons key keys ih =>
    rw [List.foldl_cons]
    refine ih ?_
    have absolute := (addExternal_absolute module key).trans rigid.absolute
    split
    · exact rigid
    split
    case h_1 symbols made => exact ⟨absolute, rigid.symbols.makeExternal made⟩
    case h_2 =>
      refine ⟨absolute, ?_⟩
      rw [addExternal_symbols]
      exact rigid.symbols

/-- Between the passes nothing becomes relocatable, and all tables are emptied. -/
theorem Rigid.preparePassTwo (rigid : module.Rigid) : module.preparePassTwo.Tabled (· = []) := by
  refine ⟨⟨rigid.absolute, rigid.symbols.adjust _⟩, fun sec member => ?_⟩
  obtain ⟨old, -, rfl⟩ := List.mem_map.mp member
  rfl

/-- An object module without relocations. -/
theorem Tabled.toObject (tabled : module.Tabled (· = [])) : module.toObject.absolute = true ∧
    ∀ block ∈ module.toObject.blocks, block.relocations = [] := by
  refine ⟨tabled.rigid.absolute, fun block member => ?_⟩
  obtain ⟨place, known, rfl⟩ := List.mem_mapIdx.mp member
  have empty : (module.sections[place]).block.relocations = [] :=
    tabled.tables _ (List.getElem_mem known)
  change List.map _ _ = []
  rw [empty]
  rfl

end Module

namespace Asm

section Issues

variable {start context after : Context} {references more : List Reference}

/-- In pass 2 nothing that is done inside a module changes another one. -/
theorem Run.elsewhere (run : Run context more after) (second : context.pass = .two) {index : Nat}
    (other : context.moduleIndex ≠ index) : after.moduleAt index = context.moduleAt index := by
  induction run with
  | refl => rfl
  | deed run deed ih =>
    have level := run.level
    exact (deed.step.elsewhere (level.pass.trans second) (level.moduleIndex ▸ other)).trans ih
  | refer key words run counted ih =>
    have level := run.level
    exact (Step.elsewhere (.intern key words) (level.pass.trans second)
      (level.moduleIndex ▸ other)).trans ih

/-- Every object module is that of a module which has ended. -/
structure Issued (context : Context) : Prop where
  second : context.pass = .two
  opened : context.Open
  objects : ∀ object ∈ context.objects, ∃ index, (context.moduleAt index).ended = true ∧
    object = (context.moduleAt index).toObject

theorem Issued.run (issued : Issued context) (run : Run context more after) : Issued after := by
  refine ⟨run.level.pass.trans issued.second, run.stays_open issued.opened, ?_⟩
  rw [run.level.objects]
  intro object member
  obtain ⟨index, ended, given⟩ := issued.objects object member
  have other : context.moduleIndex ≠ index := by
    rintro rfl
    nomatch issued.opened.current.symm.trans ended
  have same := run.elsewhere issued.second other
  exact ⟨index, same ▸ ended, same ▸ given⟩

/-- Closing a module gives its object module at most; those given before are of other modules. -/
theorem Issued.closed (issued : Issued context)
    (known : context.moduleIndex < context.modules.length) :
    ∀ object ∈ context.closed.objects, ∃ index, (context.closed.moduleAt index).ended = true ∧
      object = (context.closed.moduleAt index).toObject := by
  have old : ∀ object ∈ context.objects, ∃ index, (context.sealed.moduleAt index).ended = true ∧
      object = (context.sealed.moduleAt index).toObject := by
    intro object member
    obtain ⟨index, ended, given⟩ := issued.objects object member
    have other : context.moduleIndex ≠ index := by
      rintro rfl
      nomatch issued.opened.current.symm.trans ended
    have same := Context.moduleAt_sealed_of_ne other
    exact ⟨index, same ▸ ended, same ▸ given⟩
  simp only [Context.moduleAt_closed]
  intro object member
  unfold Context.closed at member
  split at member
  · rcases Array.mem_push.mp member with before | rfl
    · exact old object before
    · refine ⟨context.moduleIndex, ?_, rfl⟩
      rw [Context.moduleAt_sealed_self known]
  · exact old object member

theorem Issued.session (issued : Issued start) (sound : start.Sound)
    (session : Session start references context) : Issued context := by
  induction session with
  | refl => exact issued
  | run _ run ih => exact ih.run run
  | enter index _ known fresh next ih => exact ⟨ih.second, ih.opened.enter fresh next, ih.objects⟩
  | leave _ ih => exact ⟨ih.second, ih.opened.leave, ih.objects⟩
  | @close _ middle statement listing session inside ih =>
    have known := (session.steps.leads sound).1.current_lt
    refine ⟨(Context.closed_pass middle).trans ih.second, ih.opened.close inside statement listing,
      ih.closed known⟩

/-- At the end of pass 2 every object module is that of one of the modules, as it is then. -/
theorem issued_finishPass (issued : Issued start) (sound : start.Sound) (line : LineNumber) :
    Takes (Follows start) (finishPass line) fun final => ∀ object ∈ final.objects, ∃ index,
      object = (final.moduleAt index).toObject := by
  refine takes_finishPass line fun context follows => ?_
  obtain ⟨references, session⟩ := follows.sessions.session issued.opened
  have before := issued.session sound session
  have closing : Issued (closingAnonymous context line) :=
    ⟨before.second, ⟨before.opened.anonymous, before.opened.anonymous, fun _ => Nat.zero_le _,
      before.opened.ahead⟩, before.objects⟩
  have known : (closingAnonymous context line).moduleIndex <
      (closingAnonymous context line).modules.length :=
    Nat.lt_of_le_of_lt (Nat.zero_le _) follows.sound.current_lt
  obtain ⟨modules, objects⟩ := closeAnonymousModule_eq context line
  rw [objects]
  intro object member
  obtain ⟨index, -, given⟩ := closing.closed known object member
  refine ⟨index, given.trans ?_⟩
  rw [Context.moduleAt_of_modules modules]

end Issues

end Asm

namespace Assembly

variable (lines : List SourceLine) (name : String) (settings : Settings) (clock : Clock)

/-- A trait that a module has at some time in pass 1 it has when the pass ends. -/
theorem bears_passOneEnd {trait : Trait} {index : Nat} (count : Nat)
    (bears : Asm.Bears trait index (passOneAfter (lines.take count) name settings clock)) :
    Asm.Bears trait index (passOneEnd lines name settings clock) := by
  have rest := (Asm.assembles_bears.lines (lines.drop count) _ bears).1
  unfold passOneEnd Asm.runPass
  rw [Asm.forM_take_drop lines count]
  exact (Asm.bears_finishPass _ _ rest).1

theorem bears_finalContext {trait : Trait} {index : Nat}
    (bears : Asm.Bears trait index (passTwoStart lines name settings clock)) :
    Asm.Bears trait index (finalContext lines name settings clock) := by
  rw [finalContext_eq]
  have assembled := (Asm.assembles_bears.lines lines _ bears).1
  exact (Asm.bears_finishPass _ _ assembled).1

/-- No module that is absolute is outside the list. -/
theorem known_of_rigid {context : Context} {index : Nat} (rigid : (context.moduleAt index).Rigid) :
    index < context.modules.length := by
  refine Decidable.byContradiction fun beyond => ?_
  have absolute := rigid.absolute
  rw [Context.moduleAt_of_le (Nat.not_lt.mp beyond)] at absolute
  nomatch absolute

theorem rigid_passTwoStart {index count : Nat}
    (rigid : ((passOneAfter (lines.take count) name settings clock).moduleAt index).Rigid) :
    ((passTwoStart lines name settings clock).moduleAt index).Rigid := by
  have bears := bears_passOneEnd lines name settings clock count
    (⟨known_of_rigid rigid, rigid, fun _ _ => trivial⟩ :
      Asm.Bears (Module.rigidity (fun _ => True) trivial) index _)
  have ended : ((passOneEnd lines name settings clock).moduleAt index).Rigid := bears.holds.rigid
  rw [moduleAt_passTwoStart, if_pos bears.known]
  split
  · exact ended.declareImplicitExternals.preparePassTwo.rigid
  · exact ended.preparePassTwo.rigid

/-- Pass 2 begins with empty tables. -/
theorem tabled_passTwoStart {index : Nat}
    (rigid : ((passTwoStart lines name settings clock).moduleAt index).Rigid) :
    ((passTwoStart lines name settings clock).moduleAt index).Tabled (· = []) := by
  refine ⟨rigid, fun sec member => ?_⟩
  rw [moduleAt_passTwoStart] at member
  split at member
  · obtain ⟨old, -, rfl⟩ := List.mem_map.mp member
    rfl
  · nomatch member

theorem issued_passTwoStart : Asm.Issued (passTwoStart lines name settings clock) where
  second := rfl
  opened := open_passTwoStart lines name settings clock
  objects object member := by
    obtain ⟨start, first, ending⟩ :=
      Asm.takes_runPass lines .one _ (Asm.sound_initial settings clock name)
    have none : (passOneEnd lines name settings clock).objects = #[] :=
      ending.sound.unfinished (ending.pass.trans first)
    change object ∈ (passOneEnd lines name settings clock).objects at member
    rw [none] at member
    nomatch member

/-- Every object module is that of a module of the assembly. If none of the symbols of the module
holds a relocatable address when pass 2 begins, and it is absolute, its object module is absolute and
no block of it has a relocation. It is enough that this holds at some time in pass 1, and so it does
wherever a module is made absolute before any of its symbols gets an address. -/
theorem unrelocated_of_rigid :
    ∀ object ∈ (ofLines lines name settings clock).objects, ∃ index,
      object = ((finalContext lines name settings clock).moduleAt index).toObject ∧
      (∀ count, ((passOneAfter (lines.take count) name settings clock).moduleAt index).Rigid →
        ((passTwoStart lines name settings clock).moduleAt index).Rigid) ∧
      (((passTwoStart lines name settings clock).moduleAt index).Rigid →
        object.absolute = true ∧ ∀ block ∈ object.blocks, block.relocations = []) := by
  intro object member
  have sound := sound_passTwoStart lines name settings clock
  have given := finalContext_of_finishPass lines name settings clock fun line =>
    Asm.issued_finishPass (issued_passTwoStart lines name settings clock) sound line
  obtain ⟨index, rfl⟩ := given object (Array.mem_toList_iff.mp member)
  refine ⟨index, rfl, fun count => rigid_passTwoStart lines name settings clock, fun rigid => ?_⟩
  have tabled := tabled_passTwoStart lines name settings clock rigid
  have bears : Asm.Bears (Module.rigidity (· = []) rfl) index _ :=
    bears_finalContext lines name settings clock ⟨known_of_rigid rigid, tabled⟩
  exact bears.holds.toObject

/-- A module that is made absolute at its beginning, with an address in a field. -/
def absoluteLines : List SourceLine :=
  [⟨1, "         IDENT     M", false⟩, ⟨2, "         ABS", false⟩,
    ⟨3, "L        CON       5", false⟩, ⟨4, "         CON       L", false⟩,
    ⟨5, "         END", false⟩]

theorem unrelocated_absoluteLines :
    ((passOneAfter (absoluteLines.take 2) "MAIN" {} ⟨"", "", ""⟩).moduleAt 1).Rigid ∧
    (ofLines absoluteLines "MAIN" {} ⟨"", "", ""⟩).objects.length = 1 ∧
    ∀ object ∈ (ofLines absoluteLines "MAIN" {} ⟨"", "", ""⟩).objects,
      object.absolute = true ∧ ∀ block ∈ object.blocks, block.relocations = [] := by
  have early : ((passOneAfter (absoluteLines.take 2) "MAIN" {} ⟨"", "", ""⟩).moduleAt 1).Rigid := by
    decide +kernel
  have named : ∀ object ∈ (ofLines absoluteLines "MAIN" {} ⟨"", "", ""⟩).objects,
      object.name = "M" := by decide +kernel
  have anonymous : ((finalContext absoluteLines "MAIN" {} ⟨"", "", ""⟩).moduleAt 0).toObject.name =
      "MAIN" := by decide +kernel
  have length : (finalContext absoluteLines "MAIN" {} ⟨"", "", ""⟩).modules.length = 2 := by
    decide +kernel
  refine ⟨early, by decide +kernel, fun object member => ?_⟩
  obtain ⟨index, same, rigid, unrelocated⟩ :=
    unrelocated_of_rigid absoluteLines "MAIN" {} ⟨"", "", ""⟩ object member
  have name : ((finalContext absoluteLines "MAIN" {} ⟨"", "", ""⟩).moduleAt index).toObject.name =
      "M" := same ▸ named object member
  have first : index = 1 := by
    by_contra other
    rcases Nat.lt_or_ge index 2 with below | beyond
    · obtain rfl : index = 0 := by omega
      exact absurd (anonymous.symm.trans name) (by decide)
    · rw [Context.moduleAt_of_le (length ▸ beyond)] at name
      exact absurd name (by decide)
  subst first
  exact unrelocated (rigid 2 early)

/-- A symbol that is set before its module is made absolute keeps a relocatable address into pass 2,
and a field above refers to it. -/
theorem absolute_relocated :
    (ofLines [⟨1, "         IDENT     M", false⟩, ⟨2, "         CON       X", false⟩,
      ⟨3, "X        SET       *", false⟩, ⟨4, "         ABS", false⟩,
      ⟨5, "         END", false⟩] "MAIN" {} ⟨"", "", ""⟩).reports = [] ∧
    (ofLines [⟨1, "         IDENT     M", false⟩, ⟨2, "         CON       X", false⟩,
      ⟨3, "X        SET       *", false⟩, ⟨4, "         ABS", false⟩,
      ⟨5, "         END", false⟩] "MAIN" {} ⟨"", "", ""⟩).objects.map (fun object =>
        (object.absolute, object.blocks.map (·.relocations))) =
      [(true, [[⟨.extended, 0, 0, 64, false⟩], []])] := by
  decide +kernel

end Assembly

end CrayAssembler
