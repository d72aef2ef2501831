import CrayAssembler.Proofs.Assembly.Deed
import CrayAssembler.Proofs.Walk.Roaming

namespace CrayAssembler

namespace Context

/-- A context in which all that is set once is as in another one. -/
def beside (context other : Context) : Context :=
  { other with
    modules := context.modules
    capture := context.capture
    statement := context.statement
    tally := context.tally
    listing := context.listing
    reports := context.reports }

variable (context : Context)

theorem modifyModule_const (change : Module → Module) :
    (context.modifyModule fun _ => change context.currentModule) = context.modifyModule change := by
  unfold modifyModule
  refine congrArg (fun modules => { context with modules }) (List.ext_getElem? fun index => ?_)
  rw [List.getElem?_modify, List.getElem?_modify]
  by_cases current : context.moduleIndex = index
  · subst current
    unfold currentModule
    rw [List.getD_eq_getElem?_getD]
    cases context.modules[context.moduleIndex]? <;> rfl
  · simp only [if_neg current]

end Context

namespace Asm

/-- Operands are read alike in related contexts. To read them changes symbols, literals and what is
known of the statement, but no macros, and neither the line nor the frame of the statement. -/
structure Reading (M : Context → Context → Prop) : Prop where
  sight : ∀ {here there}, M here there → here.sight = there.sight
  callable : ∀ {here there}, M here there → ∀ name,
    (here.findMacro? name).isSome = (there.findMacro? name).isSome
  modules : ∀ {here there} {change : Module → Module},
    (∀ module, (change module).bare = change module.bare) →
    (∀ module, (change module).macros = module.macros) →
    M here there → M (here.modifyModule change) (there.modifyModule change)
  statements : ∀ {here there} {change : StatementState → StatementState},
    (∀ statement line frameChange, change { statement with line, frameChange } =
      { change statement with line, frameChange }) →
    M here there → M (here.modifyStatement change) (there.modifyStatement change)

/-- Directives and machine instructions do not tell related contexts apart. They also change what is
set once, open modules, and begin to collect lines; a frame is at most dropped. -/
structure Likeness (M : Context → Context → Prop) : Prop extends Reading M where
  besides : ∀ {here there} other, M here there → M (here.beside other) (there.beside other)
  opened : ∀ {here there} name, M here there →
    M { here with modules := here.modules ++ [.make name] }
      { there with modules := there.modules ++ [.make name] }
  cleared : ∀ {here there}, M here there →
    M (here.modifyStatement fun statement => { statement with frameChange := .clear })
      (there.modifyStatement fun statement => { statement with frameChange := .clear })
  captures : ∀ {here there} {capture : Capture}, capture.Begun → M here there →
    M { here with capture := some capture } { there with capture := some capture }
  listings : ∀ {here there} (listing : Context → Array Listing.Item), M here there →
    M { here with listing := listing here } { there with listing := listing there }

variable {M : Context → Context → Prop}

/-- A change of statements that has to do with neither the line nor the frame leaves the frame. -/
theorem frameChange_of_apart {change : StatementState → StatementState}
    (apart : ∀ statement line frameChange, change { statement with line, frameChange } =
      { change statement with line, frameChange }) (statement : StatementState) :
    (change statement).frameChange = statement.frameChange :=
  (congrArg StatementState.frameChange (apart statement statement.line statement.frameChange) :)

/-- The contexts are the same, and something is known of them. -/
structure Solely (I : Context → Prop) (here there : Context) : Prop where
  same : here = there
  known : I there

section Solely

variable {I : Context → Prop}

/-- What is known of a context is kept where operands are read. -/
theorem reading_solely
    (modules : ∀ {context : Context} {change : Module → Module},
      (∀ module, (change module).macros = module.macros) → I context → I (context.modifyModule change))
    (statements : ∀ {context : Context} {change : StatementState → StatementState},
      (∀ statement, (change statement).frameChange = statement.frameChange) → I context →
        I (context.modifyStatement change)) : Reading (Solely I) where
  sight solely := congrArg Context.sight solely.same
  callable solely name := by rw [solely.same]
  modules {_ _ change} _ kept solely :=
    ⟨congrArg (Context.modifyModule · change) solely.same, modules kept solely.known⟩
  statements {_ _ change} apart solely :=
    ⟨congrArg (Context.modifyStatement · change) solely.same,
      statements (frameChange_of_apart apart) solely.known⟩

/-- What is known of a context is kept by directives and machine instructions. -/
theorem likeness_solely (reading : Reading (Solely I))
    (besides : ∀ {context} other, I context → I (context.beside other))
    (opened : ∀ {context} name, I context →
      I { context with modules := context.modules ++ [.make name] })
    (cleared : ∀ {context}, I context →
      I (context.modifyStatement fun statement => { statement with frameChange := .clear }))
    (captures : ∀ {context} (capture : Capture), I context → I { context with capture := some capture })
    (listings : ∀ {context} listing, I context → I { context with listing }) :
    Likeness (Solely I) where
  toReading := reading
  besides other solely :=
    ⟨congrArg (Context.beside · other) solely.same, besides other solely.known⟩
  opened name solely :=
    ⟨congrArg (fun context : Context => { context with modules := context.modules ++ [Module.make name] })
      solely.same, opened name solely.known⟩
  cleared solely :=
    ⟨congrArg (Context.modifyStatement · fun statement => { statement with frameChange := .clear })
      solely.same, cleared solely.known⟩
  captures {_ _ capture} _ solely :=
    ⟨congrArg (fun context : Context => { context with capture := some capture }) solely.same,
      captures capture solely.known⟩
  listings listing solely :=
    ⟨congrArg (fun context : Context => { context with listing := listing context }) solely.same,
      listings _ solely.known⟩

end Solely

section Reading

variable (reading : Reading M) {here there : Context}

include reading

/-- Whatever is seen of a context is the same. -/
theorem Reading.view_eq {α : Type} (seen : Context → α)
    (same : ∀ context : Context, seen context.sight = seen context) (alike : M here there) :
    seen here = seen there := by
  rw [← same here, reading.sight alike, same there]

theorem Reading.currentModule (alike : M here there) :
    here.currentModule.bare = there.currentModule.bare := by
  rw [← here.currentModule_sight, reading.sight alike, there.currentModule_sight]

theorem Reading.resembles (alike : M here there) : here.Resembles there where
  settings := reading.view_eq Context.settings (fun _ => rfl) alike
  sectionId := reading.view_eq Context.sectionId (fun _ => rfl) alike
  qualifier := reading.view_eq Context.qualifier (fun _ => rfl) alike
  base := reading.view_eq Context.base (fun _ => rfl) alike
  list := reading.view_eq Context.list (fun _ => rfl) alike
  format := reading.view_eq Context.format (fun _ => rfl) alike
  inInstruction := reading.view_eq Context.inInstruction (fun _ => rfl) alike
  absolute := (congrArg Module.absolute (reading.currentModule alike) :)
  current := reading.view_eq (·.currentSection.bare) (fun _ => by rw [Context.currentSection_sight])
    alike
  micro name := reading.view_eq (·.findMicro? name) (Context.findMicro?_sight · name) alike
  synonym name := reading.view_eq (·.findSynonym? name) (Context.findSynonym?_sight · name) alike

theorem Reading.attributeHolds? (alike : M here there) (property name : String) :
    attributeHolds? here property name = attributeHolds? there property name := by
  have symbols : here.currentModule.symbols = there.currentModule.symbols :=
    (congrArg Module.symbols (reading.currentModule alike) :)
  have resolved := reading.view_eq (resolve · name) (Context.resolve_sight · name) alike
  have pass := reading.view_eq Context.pass (fun _ => rfl) alike
  have micro := reading.view_eq (·.findMicro? name) (Context.findMicro?_sight · name) alike
  unfold Asm.attributeHolds?
  rw [symbols, resolved, pass, micro, reading.callable alike]

/-- What follows must not ask for more than is seen of the context that is read. -/
theorem Reading.bindGet {α : Type} {next : Context → AsmM α}
    (same : ∀ context : Context, next context.sight = next context)
    (each : ∀ context, Together M (next context)) : Together M (get >>= next) :=
  .bindSame (fun _ _ alike => reading.view_eq next same alike) each

theorem Reading.modifyStatement {change : StatementState → StatementState}
    (apart : ∀ statement line frameChange, change { statement with line, frameChange } =
      { change statement with line, frameChange }) :
    Together M (Asm.modifyStatement change) :=
  .modify fun _ _ alike => reading.statements apart alike

omit reading in
/-- What is done in both contexts. -/
abbrev Reading.regard (reading : Reading M) : Regard :=
  .together M reading.resembles

theorem Reading.changes : Changes reading.regard where
  note _ := Together.keeps (reading.modifyStatement fun _ _ _ => rfl)
  view same each := Together.asking (fun _ _ alike => reading.view_eq _ same alike) each
  modifyModule bare kept :=
    Together.keeps (.modify fun _ _ alike => reading.modules bare kept alike)

theorem Reading.consults : Consults reading.regard (fun _ => True) True :=
  reading.changes.consults True

theorem Reading.error (kind : ErrorKind) : Together M (error kind) :=
  (reading.changes.error kind).1

theorem Reading.warn (kind : WarningKind) : Together M (warn kind) :=
  (reading.changes.warn kind).1

theorem Reading.fail {α : Type} (kind : ErrorKind) (value : α) :
    Together M (do Asm.error kind; return value) :=
  (reading.changes.fail kind value).1

theorem Reading.defineLabel (location : String) (kind : AddressKind) (n : Nat) :
    reading.regard.Keeps (defineLabel location kind n) := by
  refine .bindGet (fun alike => by rw [alike.sectionId, alike.relocatable]) fun context => ?_
  exact Regard.Keeps.bind (Together.keeps (reading.modifyStatement fun _ _ _ => rfl)) fun _ =>
    reading.changes.defineSymbol _ _ _

end Reading

section Likeness

variable (likeness : Likeness M)

include likeness

/-- A setting is changed. -/
theorem Likeness.aside {change : Context → Context}
    (beside : ∀ context, change context = context.beside (change context.sight)) :
    Together M (modify change : AsmM PUnit) := by
  refine .modify fun here there alike => ?_
  rw [beside here, beside there, likeness.sight alike]
  exact likeness.besides _ alike

theorem Likeness.listItem (item : Listing.Item) : Together M (listItem item) := by
  refine .modify fun here there alike => ?_
  have listed (context : Context) :
      (if context.pass = .two then { context with listing := context.listing.push item }
        else context) =
      { context with
        listing := if context.pass = .two then context.listing.push item else context.listing } := by
    split <;> rfl
  rw [listed, listed]
  exact likeness.listings
    (fun context => if context.pass = .two then context.listing.push item else context.listing) alike

theorem Likeness.reads : Reads likeness.regard fun _ => True where
  toConsults := likeness.consults
  toSees := likeness.changes.toSees
  adjust adjustment := (likeness.aside fun _ => by cases adjustment <;> rfl).keeps
  shown shows := (likeness.modifyStatement shows.apart).keeps
  listItem item := (likeness.listItem item).keeps
  beginCapture begun := Together.keeps (.modify fun _ _ => likeness.captures begun)
  defineWordLabel location :=
    .bindGet (fun alike => by rw [alike.locationWord]) fun _ => likeness.defineLabel location _ _
  defineParcelLabel location :=
    .bindGet (fun alike => by rw [alike.locationParcel]) fun _ => likeness.defineLabel location _ _
  defineSymbol location _ redefinable _ := likeness.changes.defineSymbol location _ redefinable
  declareEntry := likeness.changes.declareEntry
  describe describes := likeness.changes.modifyModule describes.bare describes.macros
  attributes name same each :=
    Together.asking (fun _ _ alike => same fun property => likeness.attributeHolds? alike property name) each

theorem Likeness.roams : Roams likeness.regard (fun _ => True) True where
  toPlaces := likeness.reads.places likeness.changes.modifySection
  declareExternal := likeness.changes.declareExternal
  findOrAddSection := likeness.changes.findOrAddSection
  setSection _ := (likeness.aside fun _ => rfl).keeps
  nameSection _ _ := .bindGet (fun alike => by rw [alike.baseWord, alike.relocatable]) fun _ =>
    likeness.changes.defineSymbol _ _ _

theorem Likeness.setSkip (skip : Option Skip) :
    Together M (modify fun context => { context with skip } : AsmM PUnit) :=
  (likeness.reads.setSkip skip).1

theorem Likeness.machineInstruction (fields : Fields) : Together M (machineInstruction fields) :=
  (likeness.roams.machineInstruction fields).1

theorem Likeness.enterModule (index : Nat) : Together M (enterModule index) :=
  .bind (likeness.aside fun _ => rfl) fun _ => .modify fun _ _ => likeness.cleared

theorem Likeness.produceObject : Together M produceObject := by
  refine likeness.bindGet (fun context => by rw [context.currentModule_sight]; rfl) fun context => ?_
  dsimp only
  split
  · refine .complain (.modify fun _ _ => likeness.listings fun later =>
      later.listing.push (.symbols context.currentModule.name context.currentModule.listedSymbols)) ?_
    refine .complain (likeness.error _) ?_
    exact likeness.aside fun _ => rfl
  · exact .pure _

theorem Likeness.closeModule : Together M closeModule := by
  intro here there alike
  have refused : here.currentModule.placeLiterals.2 = there.currentModule.placeLiterals.2 :=
    (congrArg (fun module : Module => module.placeLiterals.2)
      (likeness.currentModule alike) :)
  have finished : M
      (here.modifyModule fun _ => { here.currentModule.placeLiterals.1 with ended := true })
      (there.modifyModule fun _ => { there.currentModule.placeLiterals.1 with ended := true }) := by
    rw [here.modifyModule_const fun module => { module.placeLiterals.1 with ended := true },
      there.modifyModule_const fun module => { module.placeLiterals.1 with ended := true }]
    exact likeness.modules (fun _ => rfl) (fun _ => rfl) alike
  have rest (kind? : Option ErrorKind) : Together M
      (kind?.elim Asm.produceObject fun kind => do Asm.error kind; Asm.produceObject) := by
    cases kind? with
    | none => exact likeness.produceObject
    | some kind => exact (likeness.error kind).bind fun _ => likeness.produceObject
  have closed := rest here.currentModule.placeLiterals.2 _ _ finished
  have run (context : Context) : Asm.closeModule.run context =
      (context.currentModule.placeLiterals.2.elim Asm.produceObject fun kind => do
        Asm.error kind; Asm.produceObject).run (context.modifyModule fun _ =>
          { context.currentModule.placeLiterals.1 with ended := true }) := by
    unfold Asm.closeModule
    rw [StateT.run_bind, StateT.run_get, pure_bind]
    dsimp only
    cases context.currentModule.placeLiterals.2 <;> rfl
  unfold Meets
  rw [run, run, ← refused]
  exact closed

theorem Likeness.moves : Moves likeness.regard where
  note := likeness.changes.note
  toSees := likeness.changes.toSees
  addModule name := Together.keeps (.modify fun _ _ => likeness.opened name)
  enterModule index := (likeness.enterModule index).keeps
  closeModule := likeness.closeModule.keeps

theorem Likeness.directive (directive : Directive) (fields : Fields) :
    Together M (directive.run fields) := by
  by_cases opens : directive = .openModule
  · rw [opens]
    exact (likeness.moves.openModule fields).1
  by_cases closes : directive = .endModule
  · rw [closes]
    exact (likeness.moves.endModule fields).1
  · exact (likeness.roams.directive opens closes fields).1

end Likeness

end Asm

end CrayAssembler
