import CrayAssembler.Proofs.Assembly.Passes
import CrayAssembler.Proofs.Assembly.Roaming
import CrayAssembler.Proofs.Symbol.Persistence

namespace CrayAssembler

@[simp] theorem Module.addEntry_absolute (module : Module) (key : SymbolKey) :
    (module.addEntry key).absolute = module.absolute := by
  unfold addEntry
  split <;> rfl

@[simp] theorem Module.addExternal_absolute (module : Module) (key : SymbolKey) :
    (module.addExternal key).absolute = module.absolute := by
  unfold addExternal
  split <;> rfl

/-- What is placed in a section leaves alone what it is told by, its table of relocations and its place
in the module. -/
structure Section.Kept (before after : Section) : Prop where
  name : after.name = before.name
  type : after.type = before.type
  residency : after.residency = before.residency
  relocations : after.block.relocations = before.block.relocations
  originOffset : after.originOffset = before.originOffset

theorem Section.kept_written (sec : Section) {block : ObjectBlock}
    (same : block.relocations = sec.block.relocations) (bits : Nat) :
    sec.Kept ({ sec with block }.advance bits) where
  name := by
    unfold advance
    split <;> rfl
  type := by
    unfold advance
    split <;> rfl
  residency := by
    unfold advance
    split <;> rfl
  relocations := (congrArg (·.relocations) (Section.advance_block _ bits)).trans same
  originOffset := by
    unfold advance
    split <;> rfl

theorem Section.kept_advance (sec : Section) (bits : Nat) : sec.Kept (sec.advance bits) :=
  sec.kept_written rfl bits

/-- What may hold of a module and of the values in it. -/
structure Trait where
  ofModule : Module → Prop
  ofValue : Value → Prop
  values : Value.Closed ofValue
  /-- Values that a module gives: those of its symbols and addresses in it. -/
  symbol : ∀ key {module}, ofModule module → ofValue (module.symbols.value key)
  address : ∀ kind id n {module}, ofModule module →
    ofValue (.address kind id n (!module.absolute))
  literal : ∀ {value}, ofValue value →
    ofValue { value with attributes := { value.attributes with literal := true } }
  /-- What statements do to symbols. -/
  mention : ∀ key {module}, ofModule module →
    ofModule { module with symbols := module.symbols.mention key }
  define : ∀ {module key value redefinable pass symbols}, ofModule module → ofValue value →
    module.symbols.define key value redefinable pass = .ok symbols →
    ofModule { module with symbols }
  declareEntry : ∀ key {module}, ofModule module →
    ofModule { module.addEntry key with symbols := module.symbols.markEntry key }
  declareExternal : ∀ {module key symbols}, ofModule module →
    module.symbols.makeExternal key (module.externalIndex key) = .ok symbols →
    ofModule { module.addExternal key with symbols }
  /-- What statements do to sections. No second one of a kind is added, and a value leaves a relocation
  only if it is relocatable. -/
  addSection : ∀ name type residency {module}, ofModule module →
    module.findSection? name type residency = none →
    ofModule (module.addSection name type residency)
  place : ∀ {module id change}, ofModule module →
    (∀ sec, module.section? id = some sec → sec.Kept (change sec)) →
    ofModule (module.modifySection id change)
  relocate : ∀ id entry {module value}, ofModule module → ofValue value → value.isRelocatable →
    ofModule (module.modifySection id fun sec =>
      { sec with block := sec.block.addRelocation entry })
  /-- A module may become absolute, and its other parts do not matter. -/
  describe : ∀ {module other}, ofModule module → other.symbols = module.symbols →
    other.sections = module.sections → other.externals = module.externals →
    (module.absolute = true → other.absolute = true) → ofModule other

namespace Asm

/-- There is a module at `index`, and it has a trait. -/
structure Bears (trait : Trait) (index : Nat) (context : Context) : Prop where
  known : index < context.modules.length
  holds : trait.ofModule (context.moduleAt index)

/-- The module at `index` has a trait, and the one at `current` is the current one. -/
structure Tracks (trait : Trait) (index current : Nat) (context : Context) : Prop extends
    Bears trait index context where
  current_eq : context.moduleIndex = current

/-- A value that has the trait if it is one of the module that is looked at. -/
def Native (trait : Trait) (index current : Nat) (value : Value) : Prop :=
  current = index → trait.ofValue value

variable {trait : Trait} {index current : Nat}

section Contexts

variable {context after : Context}

theorem Bears.aside (bears : Bears trait index context)
    (modules : after.modules = context.modules) : Bears trait index after where
  known := by
    rw [modules]
    exact bears.known
  holds := by
    rw [Context.moduleAt_of_modules modules]
    exact bears.holds

/-- The modules and the current one are all that counts. -/
theorem Tracks.aside (tracks : Tracks trait index current context)
    (modules : after.modules = context.modules)
    (moduleIndex : after.moduleIndex = context.moduleIndex) : Tracks trait index current after :=
  ⟨tracks.toBears.aside modules, moduleIndex.trans tracks.current_eq⟩

theorem Tracks.currentModule (tracks : Tracks trait index current context)
    (same : current = index) : trait.ofModule context.currentModule := by
  have here : context.currentModule = context.moduleAt index := by
    rw [← same, ← tracks.current_eq]
    rfl
  rw [here]
  exact tracks.holds

/-- Nothing need be known of a change while another module is the current one. -/
theorem Tracks.modifyModule (tracks : Tracks trait index current context) {change : Module → Module}
    (kept : current = index → trait.ofModule context.currentModule →
      trait.ofModule (change context.currentModule)) :
    Tracks trait index current (context.modifyModule change) where
  current_eq := tracks.current_eq
  known := Nat.lt_of_lt_of_eq tracks.known (List.length_modify ..).symm
  holds := by
    rw [Context.moduleAt_modifyModule]
    split
    case isTrue both =>
      obtain ⟨rfl, -⟩ := both
      exact kept tracks.current_eq.symm tracks.holds
    case isFalse => exact tracks.holds

/-- A change of the current section that is no more than placing. -/
theorem Tracks.modifySection (tracks : Tracks trait index current context)
    {change : Section → Section}
    (kept : ∀ sec, context.currentModule.section? context.sectionId.current = some sec →
      sec.Kept (change sec)) :
    Tracks trait index current (context.modifySection change) :=
  tracks.modifyModule fun _ holds => trait.place holds kept

theorem tracks_modifySection {change : Section → Section}
    (kept : ∀ sec : Section, sec.Kept (change sec)) :
    Keeps (Tracks trait index current) (modifySection change) :=
  .modify fun _ tracks => tracks.modifySection fun sec _ => kept sec

end Contexts

section Reading

theorem closed_native : Value.Closed (Native trait index current) where
  absolute n _ := trait.values.absolute n
  float x _ := trait.values.float x
  undefined _ := trait.values.undefined
  unary op _ _ native computed here := trait.values.unary op (native here) computed
  binary op _ _ _ left right computed here :=
    trait.values.binary op (left here) (right here) computed
  used native here := trait.values.used (native here)
  convert kind numeric _ native here := trait.values.convert kind numeric (native here)

theorem tracks_symbol (name : Name) : Gives (Tracks trait index current) (symbol name) fun found =>
    Native trait index current found.value := by
  intro context tracks
  unfold symbol
  rw [StateT.run_bind, StateT.run_get, pure_bind]
  dsimp only
  rw [SymbolTable.reference_eq]
  refine ⟨tracks.modifyModule fun _ holds => trait.mention _ holds, fun here => ?_⟩
  exact trait.symbol _ (tracks.currentModule here)

theorem tracks_placeLiteral (key : String) (words : List Word) (undefined : Bool) :
    Gives (Tracks trait index current) (placeLiteral key words undefined) fun result =>
      ∀ value, result = .ok value → Native trait index current value := by
  intro context tracks
  unfold placeLiteral
  rw [StateT.run_bind, StateT.run_get, pure_bind]
  dsimp only
  rw [StateT.run_bind, run_modifyModule, pure_bind]
  have entered : ∀ literals, Tracks trait index current
      (context.modifyModule fun module => { module with literals }) := fun _ =>
    tracks.modifyModule fun _ holds => trait.describe holds rfl rfl rfl id
  dsimp only
  split
  · exact ⟨entered _, noResult _⟩
  · refine ⟨entered _, ?_⟩
    rintro value ⟨⟩ here
    exact trait.literal (trait.address _ _ _ (tracks.currentModule here))

theorem tracks_defineSymbol (location : String) {value : Value} (redefinable : Bool)
    (native : Native trait index current value) :
    Keeps (Tracks trait index current) (defineSymbol location value redefinable) := by
  have failed (kind : ErrorKind) : Keeps (Tracks trait index current) (error kind) :=
    .modify fun _ tracks => tracks.aside rfl rfl
  refine keeps_defineSymbol failed location fun tracks made => ?_
  exact tracks.modifyModule fun here holds => trait.define holds (native here) made

theorem tracks_declareEntry (name : String) :
    Keeps (Tracks trait index current) (declareEntry name) :=
  Gives.bindGet fun _ _ => Keeps.modify fun _ tracks =>
    tracks.modifyModule fun _ holds => trait.declareEntry _ holds

theorem survives_tracks : Survives (Tracks trait index current) (Native trait index current) where
  values := closed_native
  aside _ tracks := tracks.aside rfl rfl
  symbol := tracks_symbol
  here kind n tracks here := trait.address kind _ n (tracks.currentModule here)
  placeLiteral undefined _ := tracks_placeLiteral _ _ undefined
  defineSymbol := tracks_defineSymbol
  declareEntry := tracks_declareEntry
  describe described := by
    refine .modify fun context tracks => tracks.modifyModule fun _ holds => ?_
    have kept := described context.currentModule
    exact trait.describe holds kept.symbols kept.sections kept.externals kept.absolute

theorem reads_tracks : Reads (.keeping (Tracks trait index current)) (Native trait index current) :=
  survives_tracks.reads

end Reading

section Placing

theorem tracks_emitBits (width : Nat) (bits : Word) :
    Keeps (Tracks trait index current) (emitBits width bits) := by
  intro context tracks
  unfold emitBits
  rw [StateT.run_bind, StateT.run_get, pure_bind]
  dsimp only
  split
  case h_1 block written =>
    have kept : block.relocations = context.currentSection.block.relocations := by
      split at written
      · exact relocations_writeBits written
      · cases written
        rfl
    refine ⟨tracks.modifySection fun sec found => ?_, trivial⟩
    have current : context.currentSection = sec := by
      change context.currentModule.sections.getD _ _ = sec
      rw [List.getD_eq_getElem?_getD, show context.currentModule.sections[_]? = _ from found]
      rfl
    rw [← current]
    exact context.currentSection.kept_written kept width
  case h_2 kind _ =>
    exact ((tracks_modifySection fun sec => sec.kept_advance width).bind
      fun _ => survives_tracks.error kind) context tracks

theorem tracks_recordReference (kind : Object.EntryKind) (fieldLength : Nat) {value : Value}
    (native : Native trait index current value) (parcel : Bool) :
    Keeps (Tracks trait index current) (recordReference kind fieldLength value parcel) := by
  refine Gives.bindGet fun context _ => ?_
  dsimp only
  split
  · exact .pure trivial
  split
  · split
    · exact survives_tracks.error _
    split
    · split
      · exact tracks_modifySection fun _ => ⟨rfl, rfl, rfl, rfl, rfl⟩
      · exact .pure trivial
    · exact .pure trivial
  split
  case isTrue relocatable =>
    split
    · exact survives_tracks.error _
    split
    · split
      · exact Keeps.modify fun _ tracks => tracks.modifyModule fun here holds =>
          trait.relocate _ _ holds (native here) relocatable
      · exact .pure trivial
    · exact .pure trivial
  · exact .pure trivial

theorem places_tracks :
    Places (.keeping (Tracks trait index current)) (Native trait index current) True where
  toReads := reads_tracks
  atImage _ each := Gives.bindGet fun context _ => each context fun _ => trivial
  emitBits bits _ := tracks_emitBits _ bits
  reference _ _ _ bits native _ _ _ _ :=
    Keeps.bind (tracks_recordReference _ _ native _) fun _ => tracks_emitBits _ bits
  reserveBits bits := tracks_modifySection fun sec => sec.kept_advance bits
  setLocation _ := reads_tracks.move (fun _ => rfl) tracks_emitBits fun _ =>
    tracks_modifySection fun _ => ⟨rfl, rfl, rfl, rfl, rfl⟩
  setOrigin _ := reads_tracks.move (fun _ => rfl) tracks_emitBits fun _ =>
    tracks_modifySection fun _ => ⟨rfl, rfl, rfl, rfl, rfl⟩

end Placing

section Roaming

theorem tracks_declareExternal (name : String) :
    Keeps (Tracks trait index current) (declareExternal name) := by
  refine keeps_declareExternal survives_tracks.error name fun tracks made => ?_
  exact tracks.modifyModule fun _ holds => trait.declareExternal holds made

/-- Whatever section of the module a statement goes to, its trait stays. -/
theorem roams_tracks :
    Roams (.keeping (Tracks trait index current)) (Native trait index current) True where
  toPlaces := places_tracks
  declareExternal := tracks_declareExternal
  findOrAddSection name type residency :=
    keeps_findOrAddSection survives_tracks.error name type residency fun tracks new =>
      tracks.modifyModule fun _ holds => trait.addSection _ _ _ holds new
  setSection _ := Keeps.modify fun _ tracks => tracks.aside rfl rfl
  nameSection location id := Gives.bindGet fun _ tracks =>
    tracks_defineSymbol location false fun here => trait.address _ id _ (tracks.currentModule here)

/-- Literals are placed without relocations. -/
theorem closable_bears : Closable (Bears trait index) where
  aside _ _ bears := bears.aside rfl
  produce _ bears := bears.aside rfl
  placeLiterals {context} bears := by
    have tracks : Tracks trait index context.moduleIndex context := ⟨bears, rfl⟩
    refine (tracks.modifyModule fun _ holds => ?_).toBears
    have placed : trait.ofModule context.currentModule.placeLiterals.1 := by
      refine trait.place holds fun sec found => ?_
      have literals : context.currentModule.getSection literalsSection = sec := by
        unfold Module.getSection
        rw [List.getD_eq_getElem?_getD, show context.currentModule.sections[_]? = _ from found]
        rfl
      rw [literals, ObjectBlock.writePlaced_placedWords]
      exact sec.kept_written (relocations_writeWords _ _ _) _
    exact trait.describe placed rfl rfl rfl id

/-- What is kept whatever module is current. -/
theorem Keeps.bears {α : Type} {action : AsmM α}
    (keeps : ∀ current, Keeps (Tracks trait index current) action) :
    Keeps (Bears trait index) action :=
  fun context bears => ⟨(keeps _ context ⟨bears, rfl⟩).1.toBears, trivial⟩

/-- Modules that are opened and closed leave the one that is looked at as it is. -/
theorem persists_bears : Persists (Bears trait index) where
  inside keeps := .bears fun _ => keeps _ _ _ survives_tracks roams_tracks
  closable := closable_bears
  addModule {context} name bears := by
    refine ⟨?_, ?_⟩
    · rw [List.length_append]
      exact Nat.lt_add_right _ bears.known
    · unfold Context.moduleAt
      rw [List.getD_eq_getElem?_getD, List.getElem?_append_left bears.known,
        ← List.getD_eq_getElem?_getD]
      exact bears.holds
  enter _ bears := bears.aside rfl

end Roaming

section Statements

theorem bears_finishStatement (text : String) (edited : Option String)
    (origin : Option FrameKind) : Keeps (Bears trait index) (finishStatement text edited origin) := by
  have leaves : Keeps (Bears trait index) (modify fun context =>
      { context.resetModuleState with moduleIndex := Context.anonymousModule } : AsmM PUnit) :=
    .modify fun _ bears => bears.aside rfl
  have cleared : Keeps (Bears trait index)
      (modify fun context => { context with statement := {} } : AsmM PUnit) :=
    .modify fun _ bears => bears.aside rfl
  refine Gives.bindGet fun context _ => ?_
  refine cleared.bind fun _ => Gives.complain leaves ?_
  refine Gives.bindGet fun later _ => ?_
  refine Gives.complain (.bears fun _ => ?_) (.pure trivial)
  exact survives_tracks.record (fun _ _ tracks => tracks.aside rfl rfl) _ text edited origin

/-- Whatever is assembled, the module keeps its trait. -/
theorem assembles_bears : Assembles (Bears trait index) (Bears trait index) :=
  persists_bears.assembles bears_finishStatement

theorem bears_finishPass (line : LineNumber) : Keeps (Bears trait index) (finishPass line) :=
  (assembles_bears.finishPass line (takes_closeAnonymousModule line
    (fun _ bears => bears.aside rfl) closable_bears fun _ _ bears => bears.aside rfl)).keeps

end Statements

end Asm

end CrayAssembler
