import CrayAssembler.Proofs.Walk.Keeping

namespace CrayAssembler

namespace Asm

variable {start : Context}

theorem closed_fitting : Value.Closed (Fitting start) where
  absolute := Value.refers_absolute
  float := Value.refers_float
  undefined := Value.refers_undefined
  unary op _ _ fitting computed := fitting.unary op computed
  binary op _ _ _ left right computed := left.binary op right computed
  used fitting := Value.Refers.of_same fitting rfl rfl
  convert _ _ _ fitting := Value.Refers.of_same fitting rfl rfl

theorem Quiet.aside {context after : Context} (quiet : Quiet start context)
    (deed : Deed context after) (sectionId : after.sectionId = context.sectionId)
    (modules : after.modules = context.modules) : Quiet start after := by
  have current : after.currentModule = context.currentModule := by
    unfold Context.currentModule
    rw [modules, deed.level.moduleIndex]
  refine quiet.trans ⟨.single deed, deed.level.pass, deed.level.moduleIndex, sectionId, ?_, ?_⟩ <;>
    rw [current]

/-- A part of the current module other than its sections and externals is changed. -/
theorem Quiet.change {context : Context} (sound : start.Sound) (quiet : Quiet start context)
    {change : Module → Module} (deeds : Deeds context (context.modifyModule change))
    (sections : (change context.currentModule).sections = context.currentModule.sections)
    (externals : (change context.currentModule).externals = context.currentModule.externals) :
    Quiet start (context.modifyModule change) := by
  have current := Context.currentModule_modifyModule (quiet.steps.leads sound).1.current_lt change
  refine quiet.trans ⟨deeds, rfl, rfl, rfl, ?_, ?_⟩
  · rw [current, sections]
  · rw [current, externals]

/-- A part of the current module other than its sections, externals and literals is changed. -/
theorem Quiet.module {context : Context} (sound : start.Sound) (quiet : Quiet start context)
    {change : Module → Module} (step : Step context (context.modifyModule change))
    (sections : (change context.currentModule).sections = context.currentModule.sections)
    (externals : (change context.currentModule).externals = context.currentModule.externals)
    (literals : (change context.currentModule).literals = context.currentModule.literals)
    (ended : (change context.currentModule).ended = context.currentModule.ended) :
    Quiet start (context.modifyModule change) := by
  have later := Module.Later.of_sections sections literals ended
  exact quiet.change sound (.single (.of_module step later)) sections externals

theorem quiet_symbol (sound : start.Sound) (name : Name) :
    Gives (Quiet start) (symbol name) fun found => Fitting start found.value := by
  intro context quiet
  have module := (quiet.steps.leads sound).1.currentModule
  unfold symbol
  rw [StateT.run_bind, StateT.run_get, pure_bind]
  dsimp only
  rw [SymbolTable.reference_eq]
  refine ⟨quiet.module sound (.mention _) rfl rfl rfl rfl, ?_⟩
  exact (quiet.fitting _).mp (module.symbols.getD _)

/-- An address in the current section. -/
theorem Quiet.here {context : Context} (sound : start.Sound) (quiet : Quiet start context)
    (kind : AddressKind) (n : Word) :
    Fitting start (.address kind context.sectionId.current n context.relocatable) := by
  rw [← quiet.fitting]
  exact Value.refers_address _
    ((quiet.steps.leads sound).1.sections_lt _ List.mem_cons_self) _ _

theorem quiet_placeLiteral (sound : start.Sound) {key : String} {words : List Word}
    (undefined : Bool) (counted : words.length = LiteralPool.wordCount key) :
    Gives (Quiet start) (placeLiteral key words undefined) fun result =>
      ∀ value, result = .ok value → Fitting start value := by
  intro context quiet
  have module := (quiet.steps.leads sound).1.currentModule
  have entered : Quiet start (context.modifyModule fun module =>
      { module with literals := context.currentModule.literals.insert key words }) :=
    quiet.change sound (Deeds.refl.refer counted) rfl rfl
  unfold placeLiteral
  rw [StateT.run_bind, StateT.run_get, pure_bind]
  simp only [LiteralPool.intern_eq]
  rw [StateT.run_bind, run_modifyModule, pure_bind]
  dsimp only
  split
  · exact ⟨entered, noResult _⟩
  · refine ⟨entered, ?_⟩
    rintro value ⟨⟩
    rw [← quiet.fitting]
    refine ⟨?_, nofun⟩
    rintro _ ⟨⟩
    exact module.literals_lt

/-- Defining a symbol with a value that refers to the current module. -/
theorem quiet_defineSymbol (sound : start.Sound) (location : String) {value : Value}
    (redefinable : Bool) (fitting : Fitting start value) :
    Keeps (Quiet start) (defineSymbol location value redefinable) := by
  have failed (kind : ErrorKind) : Keeps (Quiet start) (error kind) :=
    .modify fun _ quiet => quiet.aside (.aside ..) rfl rfl
  refine keeps_defineSymbol failed location fun {_ _ symbols} quiet made => ?_
  exact quiet.module sound (.define _ value redefinable symbols ((quiet.fitting value).mpr fitting)
    made) rfl rfl rfl rfl

theorem quiet_declareEntry (sound : start.Sound) (name : String) :
    Keeps (Quiet start) (declareEntry name) := by
  refine Gives.bindGet fun context _ => ?_
  exact Keeps.modify fun context quiet => quiet.module sound (.declareEntry _)
    (Module.addEntry_sections _ _) (Module.addEntry_externals _ _) (Module.addEntry_literals _ _)
    (Module.addEntry_ended _ _)

theorem quiet_describe (sound : start.Sound) {change : Module → Module}
    (described : ∀ module : Module, module.Described (change module)) :
    Keeps (Quiet start) (modifyModule change) := by
  refine .modify fun context quiet => ?_
  have kept := described context.currentModule
  refine quiet.module sound (.describe change fun module => ?_) kept.sections kept.externals
    kept.literals kept.ended
  obtain ⟨name, sections, symbols, literals, externals, -, -⟩ := described module
  exact ⟨name, sections, symbols, literals, externals⟩

/-- Reading operands and describing modules is quiet. -/
theorem survives_quiet (sound : start.Sound) : Survives (Quiet start) (Fitting start) where
  values := closed_fitting
  aside _ quiet := quiet.aside (.aside ..) rfl rfl
  symbol := quiet_symbol sound
  here kind n quiet := quiet.here sound kind n
  placeLiteral := quiet_placeLiteral sound
  defineSymbol := quiet_defineSymbol sound
  declareEntry := quiet_declareEntry sound
  describe := quiet_describe sound

theorem reads_quiet (sound : start.Sound) : Reads (.keeping (Quiet start)) (Fitting start) :=
  (survives_quiet sound).reads

end Asm

end CrayAssembler
