import CrayAssembler.Proofs.Assembly.Passes
import CrayAssembler.Proofs.Symbol.Persistence

namespace CrayAssembler

open SymbolTable (Change Settled Carried Refused displace)

namespace Module

/-- Words by which a section is displaced. -/
def offset (module : Module) (id : SectionId) : Nat :=
  (module.sections.map (·.originOffset)).getD id 0

/-- Symbols that are left undefined may become externals between the passes; all others keep their
values. -/
theorem value_declareImplicitExternals (module : Module) (key : SymbolKey) :
    module.declareImplicitExternals.symbols.value key = module.symbols.value key ∨
      (module.symbols.value key).isUndefined ∧
        (module.declareImplicitExternals.symbols.value key).isExternal := by
  unfold declareImplicitExternals
  generalize module.symbols.undefined = keys
  induction keys generalizing module with
  | nil => exact .inl rfl
  | cons first rest ih =>
    rw [List.foldl_cons]
    split
    · exact ih module
    split
    case h_2 =>
      have later := ih (module.addExternal first)
      rwa [addExternal_symbols] at later
    case h_1 symbols made =>
      have later := ih { module.addExternal first with symbols }
      rcases SymbolTable.value_makeExternal made key with same | ⟨undefined, external⟩
      · rwa [show ({ module.addExternal first with symbols } : Module).symbols.value key =
          module.symbols.value key from same] at later
      · refine .inr ⟨undefined, ?_⟩
        rcases later with same | ⟨-, external⟩
        · rw [same]
          exact external
        · exact external

theorem value_preparePassTwo (module : Module) (key : SymbolKey) :
    module.preparePassTwo.symbols.value key =
      displace module.preparePassTwo.offset (module.symbols.value key) := by
  refine (SymbolTable.value_adjust ..).trans (congrArg (displace · _) (funext fun id => ?_))
  unfold offset preparePassTwo
  dsimp only
  rw [List.map_map]
  rfl

end Module

namespace Context

/-- The symbols of the module with the given place. -/
def symbolsAt (context : Context) (index : Nat) : SymbolTable :=
  (context.modules.getD index default).symbols

/-- The value of a symbol of the module with the given place. -/
def valueAt (context : Context) (index : Nat) (key : SymbolKey) : Value :=
  (context.symbolsAt index).value key

/-- Words by which a section of the module with the given place is displaced. -/
def offsetAt (context : Context) (index : Nat) (id : SectionId) : Nat :=
  (context.modules.getD index default).offset id

variable {context : Context}

theorem change_modifyModule {pass : Pass} {change : Module → Module}
    (changed : Change pass context.currentModule.symbols (change context.currentModule).symbols)
    (index : Nat) :
    Change pass (context.symbolsAt index) ((context.modifyModule change).symbolsAt index) := by
  unfold symbolsAt
  rw [List.getD_eq_getElem?_getD, List.getD_eq_getElem?_getD, getElem?_modifyModule]
  cases found : context.modules[index]? with
  | none => exact .keep
  | some module =>
    rw [Option.map_some, Option.getD_some, Option.getD_some]
    split
    case isTrue same =>
      have current : context.currentModule = module := by
        rw [currentModule, same, List.getD_eq_getElem?_getD, found, Option.getD_some]
      rwa [current] at changed
    case isFalse => exact .keep

@[simp] theorem symbolsAt_modifySection (context : Context) (change : Section → Section)
    (index : Nat) : (context.modifySection change).symbolsAt index = context.symbolsAt index := by
  unfold symbolsAt
  rw [List.getD_eq_getElem?_getD, List.getD_eq_getElem?_getD]
  refine (congrArg (·.getD default |>.symbols) (getElem?_modifyModule ..)).trans ?_
  cases context.modules[index]? with
  | none => rfl
  | some module =>
    change (if _ then _ else module : Module).symbols = module.symbols
    split <;> rfl

theorem symbolsAt_append (context : Context) (name : String) (index : Nat) :
    Context.symbolsAt { context with modules := context.modules ++ [.make name] } index =
      context.symbolsAt index := by
  unfold symbolsAt
  rw [List.getD_eq_getElem?_getD, List.getD_eq_getElem?_getD]
  by_cases known : index < context.modules.length
  · exact congrArg (·.getD default |>.symbols) (List.getElem?_append_left known)
  · have length := Nat.not_lt.mp known
    dsimp only
    rw [List.getElem?_append_right length, List.getElem?_eq_none length]
    cases index - context.modules.length <;> rfl

end Context

namespace Asm

variable {context after : Context}

@[simp] theorem symbolsAt_emitBits (context : Context) (width : Nat) (bits : Word) (index : Nat) :
    ((emitBits width bits).run context).2.symbolsAt index = context.symbolsAt index := by
  unfold emitBits
  rw [StateT.run_bind, StateT.run_get, pure_bind]
  dsimp only
  split
  · exact context.symbolsAt_modifySection _ index
  · exact context.symbolsAt_modifySection (·.advance width) index

@[simp] theorem symbolsAt_recordReference (context : Context) (kind : Object.EntryKind)
    (fieldLength : Nat) (value : Value) (parcel : Bool) (index : Nat) :
    ((recordReference kind fieldLength value parcel).run context).2.symbolsAt index =
      context.symbolsAt index := by
  generalize recorded : ((recordReference kind fieldLength value parcel).run context).2 = later
  obtain rfl | ⟨d, rfl⟩ | ⟨-, ⟨id, -, rfl⟩ | ⟨external, -, rfl⟩⟩ :=
    recordReference_cases context kind fieldLength value parcel recorded
  · rfl
  · rfl
  · exact context.symbolsAt_modifySection _ index
  · exact context.symbolsAt_modifySection _ index

/-- What a step does to the symbols of any module. -/
theorem Step.change (step : Step context after) (index : Nat) :
    Change context.pass (context.symbolsAt index) (after.symbolsAt index) := by
  cases step with
  | aside | selectSection | enter | leave | produce => exact .keep
  | describe change kept =>
    obtain ⟨-, -, symbols, -, -⟩ := kept context.currentModule
    refine Context.change_modifyModule ?_ index
    rw [symbols]
    exact .keep
  | mention key => exact Context.change_modifyModule (.mention key) index
  | define key value redefinable symbols refers made =>
    exact Context.change_modifyModule (.define key value redefinable made) index
  | declareEntry key => exact Context.change_modifyModule (.markEntry key) index
  | declareExternal key symbols made =>
    exact Context.change_modifyModule (.makeExternal key _ made) index
  | intern | addSection | placeLiterals => exact Context.change_modifyModule .keep index
  | emit width bits =>
    rw [symbolsAt_emitBits]
    exact .keep
  | emitReference kind fieldLength value parcel width bits =>
    rw [← symbolsAt_recordReference context kind fieldLength value parcel index]
    change Change _ _ (((emitBits width bits).run _).2.symbolsAt index)
    rw [symbolsAt_emitBits]
    exact .keep
  | reserve | setLocation | setOrigin =>
    rw [Context.symbolsAt_modifySection]
    exact .keep
  | addModule name =>
    rw [Context.symbolsAt_append]
    exact .keep

/-- What was settled in the first context is the same in the second. -/
def Settles (before after : Context) : Prop :=
  ∀ index key, Settled (before.valueAt index key) →
    Settled (after.valueAt index key) ∧ (after.valueAt index key).same (before.valueAt index key)

theorem Steps.settles (steps : Steps context after) (first : context.pass = .one) :
    Settles context after := by
  induction steps with
  | refl => exact fun index key settled => ⟨settled, Value.same_refl _⟩
  | @tail middle last steps step ih =>
    intro index key settled
    obtain ⟨before, same⟩ := ih index key settled
    have change := step.change index
    rw [Steps.pass steps, first] at change
    obtain ⟨later, unchanged⟩ := change.settled before
    exact ⟨later, Value.same_trans unchanged same⟩

/-- Through pass 2 every symbol keeps what it began with, until the pass defines it again. -/
theorem Steps.carried (steps : Steps context after) (second : context.pass = .two) {index : Nat}
    {key : SymbolKey} {given : Value} (carried : Carried given (context.valueAt index key)) :
    Carried given (after.valueAt index key) := by
  induction steps with
  | refl => exact carried
  | @tail middle last steps step ih =>
    have change := step.change index
    rw [Steps.pass steps, second] at change
    exact change.carried ih

/-- An external stays what it is through a pass. -/
theorem Steps.external (steps : Steps context after) {index : Nat} {key : SymbolKey} {given : Value}
    (defined : given.isUndefined = false) (external : given.isExternal)
    (same : (context.valueAt index key).same given) : (after.valueAt index key).same given := by
  induction steps with
  | refl => exact same
  | tail _ step ih => exact (step.change index).external defined external ih

theorem settles_finishPass (line : LineNumber) (first : context.pass = .one) :
    Takes (Follows context) (finishPass line) (Settles context) := by
  have unmoved : ∀ {middle last : Context}, last.modules = middle.modules →
      Settles context middle → Settles context last := by
    intro middle last same settles
    unfold Settles Context.valueAt Context.symbolsAt
    rw [same]
    exact settles
  refine takes_finishPass line (takes_closeAnonymousModule line ?_ ?_ ?_)
  · exact fun _ follows => unmoved rfl (follows.steps.settles first)
  · refine ⟨fun _ _ => unmoved rfl, ?_, fun _ => unmoved rfl⟩
    intro middle settles index key settled
    have change : Change .one (middle.symbolsAt index) ((middle.modifyModule fun _ =>
        { middle.currentModule.placeLiterals.1 with ended := true }).symbolsAt index) :=
      Context.change_modifyModule .keep index
    obtain ⟨before, same⟩ := settles index key settled
    obtain ⟨later, unchanged⟩ := change.settled before
    exact ⟨later, Value.same_trans unchanged same⟩
  · exact fun _ _ => unmoved rfl

/-- What a definition comes to under a name that is one. -/
theorem run_defineSymbol {location : String} (identifier : Fields.isIdentifier location)
    (context : Context) (new : Value) (redefinable : Bool) :
    (defineSymbol location new redefinable).run context =
      match context.currentModule.symbols.define ⟨context.qualifier.current, location⟩ new
        redefinable context.pass with
      | .ok symbols => ((), context.modifyModule fun module => { module with symbols })
      | .error kind => ((), context.register (.error kind)) := by
  have named : ¬location.isEmpty = true := by
    intro empty
    rw [String.isEmpty_iff.mp empty] at identifier
    nomatch identifier
  have valid : ¬(!Fields.isIdentifier location) = true := by
    rw [identifier]
    exact Bool.false_ne_true
  unfold defineSymbol
  rw [if_neg named]
  change StateT.run (if !Fields.isIdentifier location then _ else _) context = _
  rw [if_neg valid, StateT.run_bind, StateT.run_get, pure_bind]
  dsimp only
  cases context.currentModule.symbols.define ⟨context.qualifier.current, location⟩ new redefinable
    context.pass <;> rfl

/-- A module as it is after what is done between the passes. -/
theorem moduleAt_betweenPasses (context : Context) (index : Nat) :
    (betweenPasses context).moduleAt index =
      if index < context.modules.length then
        (if context.settings.implicitExternals then
          (context.moduleAt index).declareImplicitExternals
        else context.moduleAt index).preparePassTwo
      else default := by
  unfold Context.moduleAt
  rw [List.getD_eq_getElem?_getD, List.getD_eq_getElem?_getD]
  have prepared : (betweenPasses context).modules[index]? = (context.modules[index]?).map
      fun module => (if context.settings.implicitExternals then module.declareImplicitExternals
        else module).preparePassTwo := List.getElem?_map ..
  rw [prepared]
  cases found : context.modules[index]? with
  | none => rw [if_neg (Nat.not_lt.mpr (List.getElem?_eq_none_iff.mp found))]; rfl
  | some module => rw [if_pos (List.getElem?_eq_some_iff.mp found).1]; rfl

/-- Between the passes a value moves with its section; one that is missing may become that of an
external. -/
theorem valueAt_betweenPasses (context : Context) (index : Nat) (key : SymbolKey) :
    (betweenPasses context).valueAt index key =
        displace ((betweenPasses context).offsetAt index) (context.valueAt index key) ∨
      (context.valueAt index key).isUndefined ∧
        ((betweenPasses context).valueAt index key).isExternal := by
  unfold Context.valueAt Context.symbolsAt Context.offsetAt
  rw [List.getD_eq_getElem?_getD, List.getD_eq_getElem?_getD]
  have prepared : (betweenPasses context).modules[index]? = (context.modules[index]?).map
      fun module => (if context.settings.implicitExternals then module.declareImplicitExternals
        else module).preparePassTwo := List.getElem?_map ..
  rw [prepared]
  cases context.modules[index]? with
  | none => exact .inl rfl
  | some module =>
    rw [Option.map_some, Option.getD_some, Option.getD_some, Module.value_preparePassTwo]
    split
    case isFalse => exact .inl rfl
    case isTrue =>
      rcases module.value_declareImplicitExternals key with same | ⟨undefined, external⟩
      · rw [same]
        exact .inl rfl
      · refine .inr ⟨undefined, ?_⟩
        rw [SymbolTable.isExternal_displace]
        exact external

theorem carried_betweenPasses (context : Context) (index : Nat) (key : SymbolKey) :
    Carried (displace ((betweenPasses context).offsetAt index) (context.valueAt index key))
      ((betweenPasses context).valueAt index key) := by
  rcases valueAt_betweenPasses context index key with same | ⟨-, external⟩
  · rw [same]
    exact .inl (Value.same_refl _)
  · exact .inr (.inl external)

end Asm

/-- Two addresses are the same value if they count the same unit from the same section. -/
theorem Value.address_same_iff {kind other : AddressKind} {id otherId : SectionId} {n m : Word}
    {relocatable moved : Bool} :
    (address kind id n relocatable).same (address other otherId m moved) ↔
      other = kind ∧ otherId = id ∧ m = n ∧ moved = relocatable := by
  constructor
  · intro same
    have equal := Value.same_iff.mp same
    have kinds := congrArg Value.addressKind equal
    have homes := congrArg Value.home equal
    have numbers := congrArg Value.numeric equal
    have relocations := congrArg (·.attributes.relocatable) equal
    refine ⟨?_, (Option.some.inj homes).symm, numbers.symm, relocations.symm⟩
    cases kind <;> cases other <;> first | rfl | nomatch kinds
  · rintro ⟨rfl, rfl, rfl, rfl⟩
    exact Value.same_refl _

theorem SymbolTable.displace_address (offset : SectionId → Nat) {kind : AddressKind}
    (counts : kind ≠ .value) (id : SectionId) (n : Word) (relocatable : Bool) :
    displace offset (.address kind id n relocatable) =
      .address kind id (n + UInt64.ofNat (offset id * kind.perWord)) relocatable := by
  cases kind with
  | value => exact absurd rfl counts
  | parcel => rfl
  | word => rfl
  | byte => rfl

namespace Assembly

variable (lines : List SourceLine) (name : String) (settings : Settings) (clock : Clock)

/-- The context after some lines of pass 1. -/
def passOneAfter : Context :=
  ((lines.forM Asm.assembleSourceLine).run ((Context.initial settings clock name).startPass .one)).2

/-- The context that pass 1 ends with. -/
def passOneEnd : Context :=
  ((Asm.runPass lines .one).run (.initial settings clock name)).2

/-- The context that pass 2 begins with. -/
def passTwoStart : Context :=
  (Asm.betweenPasses (passOneEnd lines name settings clock)).startPass .two

/-- What some lines of pass 1 have settled is the same when the pass ends. -/
theorem settles_passOneEnd (count : Nat) :
    Asm.Settles (passOneAfter (lines.take count) name settings clock)
      (passOneEnd lines name settings clock) := by
  have sound := Asm.sound_initial settings clock name
  have begun := (Asm.follows_lines (lines.take count) _ ⟨sound, .refl⟩).1
  have rest := (Asm.follows_lines (lines.drop count) _ ⟨begun.sound, .refl⟩).1
  have closed := Asm.settles_finishPass ((lines.getLast?.map (·.number + 1)).getD 1)
    (Asm.Steps.pass begun.steps) _ rest
  unfold passOneEnd Asm.runPass
  rw [Asm.forM_take_drop lines count]
  exact closed

theorem sound_passTwoStart : (passTwoStart lines name settings clock).Sound := by
  obtain ⟨start, first, ending⟩ :=
    Asm.takes_runPass lines .one _ (Asm.sound_initial settings clock name)
  exact Asm.sound_betweenPasses ending first

/-- All lines of pass 2 are assembled in contexts that steps lead to. -/
theorem steps_passTwo (count : Nat) : Asm.Steps (passTwoStart lines name settings clock)
    (((lines.take count).forM Asm.assembleSourceLine).run
      (passTwoStart lines name settings clock)).2 := by
  have sound := sound_passTwoStart lines name settings clock
  exact (Asm.follows_lines (lines.take count) _ ⟨sound, .refl⟩).1.steps

/-- A module as pass 2 finds it. -/
theorem moduleAt_passTwoStart (index : Nat) :
    (passTwoStart lines name settings clock).moduleAt index =
      if index < (passOneEnd lines name settings clock).modules.length then
        (if (passOneEnd lines name settings clock).settings.implicitExternals then
          ((passOneEnd lines name settings clock).moduleAt index).declareImplicitExternals
        else (passOneEnd lines name settings clock).moduleAt index).preparePassTwo
      else default :=
  Asm.moduleAt_betweenPasses ..

/-- Pass 2 begins with all sections set back. -/
theorem section_passTwoStart (index : Nat) (id : SectionId) :
    ∃ sec : Section, ((passTwoStart lines name settings clock).moduleAt index).getSection id =
      sec.restart := by
  have restarted (module : Module) :
      ∃ sec : Section, module.preparePassTwo.getSection id = sec.restart := by
    unfold Module.getSection Module.preparePassTwo
    dsimp only
    rw [List.getD_eq_getElem?_getD, List.getElem?_map]
    cases (if module.absolute then Module.layOutFrom 0 module.sections
      else module.sections)[id]? with
    | none => exact ⟨.make "" .mixed .cm, rfl⟩
    | some sec => exact ⟨sec, rfl⟩
  rw [moduleAt_passTwoStart]
  split
  · exact restarted _
  · exact ⟨.make "" .mixed .cm, by cases id <;> rfl⟩

/-- Pass 2 begins with no module ended. -/
theorem unended_passTwoStart (index : Nat) :
    ((passTwoStart lines name settings clock).moduleAt index).ended = false := by
  rw [moduleAt_passTwoStart]
  split <;> rfl

theorem open_passTwoStart : (passTwoStart lines name settings clock).Open :=
  have unended := unended_passTwoStart lines name settings clock
  ⟨unended _, unended _, fun _ => Nat.zero_le _, fun _ index _ => unended index⟩

theorem finalContext_eq : finalContext lines name settings clock =
    ((Asm.runPass lines .two).run (Asm.betweenPasses (passOneEnd lines name settings clock))).2 :=
  rfl

/-- What the end of a pass leads to holds at the end of pass 2. -/
theorem finalContext_of_finishPass {Q : Context → Prop}
    (ends : ∀ line, Asm.Takes (Asm.Follows (passTwoStart lines name settings clock))
      (Asm.finishPass line) Q) : Q (finalContext lines name settings clock) := by
  have begun : Asm.Follows (passTwoStart lines name settings clock)
      (passTwoStart lines name settings clock) :=
    ⟨sound_passTwoStart lines name settings clock, .refl⟩
  rw [finalContext_eq]
  unfold Asm.runPass
  exact ((Asm.follows_lines lines).takesBind fun _ => ends _) _ begun

/-- A definition of a symbol in any context of pass 2, compared with what pass 1 left. What pass 1
settled at any time is what it leaves; pass 2 has it moved with its section, unless this pass makes
the symbol external or sets it anew. A definition is refused with a diagnostic, and changes nothing
else, exactly when the symbol is external, or this pass defined it for good, or pass 1 left it another
value. An address is another one when its section, its unit or its count is, up to the origin of the
section. -/
theorem definition_passTwo (index : Nat) (key : SymbolKey) {context : Context}
    (during : Asm.Steps (passTwoStart lines name settings clock) context) :
    let given := (passOneEnd lines name settings clock).valueAt index key
    let offset := (passTwoStart lines name settings clock).offsetAt index
    let now := context.valueAt index key
    (∀ count, Settled ((passOneAfter (lines.take count) name settings clock).valueAt index key) →
      given.same ((passOneAfter (lines.take count) name settings clock).valueAt index key)) ∧
    (given.isUndefined = false → now.same (displace offset given) ∨ now.isExternal ∨
      now.attributes.definedInPassTwo ∧ now.attributes.redefinable) ∧
    (∀ kind id n relocatable, kind ≠ .value → given.same (.address kind id n relocatable) →
      ∀ otherKind other m moved, (displace offset given).same (.address otherKind other m moved) ↔
        otherKind = kind ∧ other = id ∧ m = n + UInt64.ofNat (offset id * kind.perWord) ∧
          moved = relocatable) ∧
    (Fields.isIdentifier key.name → context.moduleIndex = index →
      context.qualifier.current = key.qualifier → ∀ new redefinable,
      (Refused (displace offset given) now new redefinable →
        ((Asm.defineSymbol key.name new redefinable).run context).2 =
          context.register (.error .doubleDefinition)) ∧
      (¬Refused (displace offset given) now new redefinable → ∃ entry,
        ((Asm.defineSymbol key.name new redefinable).run context).2 =
          context.modifyModule fun module => { module with
            symbols := context.currentModule.symbols.insert key
              (new.held redefinable .two entry) })) := by
  intro given offset now
  have second : context.pass = .two := Asm.Steps.pass during
  have carried : Carried (displace offset given) now :=
    Asm.Steps.carried during rfl (Asm.carried_betweenPasses ..)
  refine ⟨?_, ?_, ?_, ?_⟩
  · exact fun count settled => (settles_passOneEnd lines name settings clock count index key settled).2
  · intro defined
    rcases carried with same | external | ⟨again, redefinable | undefined⟩
    · exact .inl same
    · exact .inr (.inl external)
    · exact .inr (.inr ⟨again, redefinable⟩)
    · rw [SymbolTable.isUndefined_displace, defined] at undefined
      nomatch undefined
  · intro kind id n relocatable counts label otherKind other m moved
    have place := SymbolTable.displace_same offset label
    rw [SymbolTable.displace_address offset counts] at place
    rw [← Value.address_same_iff]
    exact ⟨Value.same_trans (Value.same_symm place), Value.same_trans place⟩
  · intro identifier current qualified new redefinable
    subst current
    have refusal : SymbolTable.conflicts (context.currentModule.symbols.value key) new
        redefinable .two ↔ Refused (displace offset given) now new redefinable :=
      SymbolTable.conflicts_two_iff carried new redefinable
    obtain ⟨entry, outcome⟩ :=
      SymbolTable.define_eq context.currentModule.symbols key new redefinable .two
    obtain ⟨qualifier, location⟩ := key
    rw [Asm.run_defineSymbol identifier, qualified, second, outcome]
    constructor
    · intro refused
      rw [if_pos (refusal.mpr refused)]
    · intro accepted
      rw [if_neg (mt refusal.mp accepted)]
      exact ⟨entry, rfl⟩

/-- Passes may disagree on an address, in a program that defines every symbol once: the instruction
takes two parcels in pass 1 and one in pass 2. -/
theorem passes_disagree :
    (ofLines [⟨1, "         IDENT    M", false⟩, ⟨2, "A        =        B", false⟩,
      ⟨3, "         A1       A", false⟩, ⟨4, "L        =        *P", false⟩,
      ⟨5, "B        =        5", false⟩, ⟨6, "         END", false⟩] "MAIN" {}
      ⟨"", "", ""⟩).reports = [⟨4, "L        =        *P", [.error .doubleDefinition]⟩] := by
  decide +kernel

end Assembly

end CrayAssembler
