import CrayAssembler.Assembly.Statement
import CrayAssembler.Proofs.Walk.Roaming

namespace CrayAssembler

/-- What becomes of the diagnostics of a statement: they stay, one is added to them, or a statement
begins that has none. -/
inductive DiagnosticSet.Noted (before : DiagnosticSet) : DiagnosticSet → Prop
  | same : Noted before before
  | insert (d : Diagnostic) : Noted before (before.insert d)
  | cleared : Noted before .empty

namespace Asm

/-- What an invariant of contexts has to survive, and what has to hold of the values that it goes
with, while operands are read and the parts of a module outside its sections are changed. -/
structure Survives (I : Context → Prop) (V : Value → Prop) : Prop where
  values : Value.Closed V
  aside : ∀ {context : Context} {statement : StatementState} {qualifier : Setting String}
    {base : Setting NumeralBase} {list : Setting ListFlags} {format : Setting SourceFormat}
    {skip : Option Skip} {capture : Option Capture} {inInstruction : Bool}
    {listing : Array Listing.Item}, context.statement.diagnostics.Noted statement.diagnostics →
    I context → I { context with
      statement, qualifier, base, list, format, skip, capture, inInstruction, listing }
  symbol : ∀ name, Gives I (symbol name) fun found => V found.value
  here : ∀ {context : Context} (kind : AddressKind) (n : Word), I context →
    V (.address kind context.sectionId.current n context.relocatable)
  placeLiteral : ∀ {key : String} {words : List Word} (undefined : Bool),
    words.length = LiteralPool.wordCount key →
    Gives I (placeLiteral key words undefined) fun result => ∀ value, result = .ok value → V value
  defineSymbol : ∀ (location : String) {value : Value} (redefinable : Bool), V value →
    Keeps I (defineSymbol location value redefinable)
  declareEntry : ∀ name, Keeps I (declareEntry name)
  describe : ∀ {change : Module → Module}, (∀ module : Module, module.Described (change module)) →
    Keeps I (modifyModule change)

theorem sees_keeping {I : Context → Prop} : Sees (.keeping I) where
  view _ each := Gives.bindGet fun context _ => each context

section Survival

variable {I : Context → Prop} {V : Value → Prop} (survives : Survives I V)

include survives

theorem Survives.note (d : Diagnostic) : Keeps I (note d) :=
  .modify fun _ holds => survives.aside (.insert d) holds

theorem Survives.error (kind : ErrorKind) : Keeps I (error kind) :=
  survives.note _

theorem Survives.warn (kind : WarningKind) : Keeps I (warn kind) :=
  survives.note _

theorem Survives.modifyStatement {change : StatementState → StatementState}
    (kept : ∀ statement, (change statement).diagnostics = statement.diagnostics) :
    Keeps I (modifyStatement change) :=
  .modify fun context holds => survives.aside (kept context.statement ▸ .same) holds

theorem Survives.counter (counter : Counter) : Gives I (Asm.counter counter) V := by
  intro context holds
  refine ⟨?_, ?_⟩
  · cases counter <;> exact holds
  · cases counter with
    | location => exact survives.here _ _ holds
    | parcel => exact survives.here _ _ holds
    | origin => exact survives.here _ _ holds
    | absolute => exact survives.values.absolute _
    | wordBit => exact survives.values.absolute _
    | parcelBit => exact survives.values.absolute _

theorem Survives.defineLabel (location : String) (kind : AddressKind) (n : Nat) :
    Keeps I (defineLabel location kind n) := by
  refine Gives.bindGet fun context holds => ?_
  refine Keeps.bind (survives.modifyStatement fun _ => rfl) fun _ => ?_
  exact survives.defineSymbol location false (survives.here _ _ holds)

theorem Survives.adjust (adjustment : Context.Adjustment) :
    Keeps I (modify (·.adjust adjustment) : AsmM PUnit) :=
  .modify fun _ holds => by cases adjustment <;> exact survives.aside .same holds

theorem Survives.listItem (item : Listing.Item) : Keeps I (listItem item) := by
  refine .modify fun context kept => ?_
  split
  · exact survives.aside .same kept
  · exact kept

/-- What an invariant survives is all that has to be shown of directives. -/
theorem Survives.reads : Reads (.keeping I) V where
  note := survives.note
  values := survives.values
  symbol := survives.symbol
  counter := survives.counter
  placeLiteral undefined sized := survives.placeLiteral undefined (sized trivial)
  adjust := survives.adjust
  shown shows := survives.modifyStatement shows.diagnostics
  listItem := survives.listItem
  beginCapture _ := Keeps.modify fun _ holds => survives.aside .same holds
  defineWordLabel location := Gives.bindGet fun _ _ => survives.defineLabel location _ _
  defineParcelLabel location := Gives.bindGet fun _ _ => survives.defineLabel location _ _
  defineSymbol := survives.defineSymbol
  declareEntry := survives.declareEntry
  describe describes := survives.describe describes.described
  attributes _ _ each := Gives.bindGet fun context _ => each context
  toSees := sees_keeping

end Survival

/-- An invariant that symbols and literals may be entered under. -/
theorem consults_keeping {I : Context → Prop} (note : ∀ d, Keeps I (note d))
    (symbol : ∀ name, Keeps I (symbol name))
    (placeLiteral : ∀ key words undefined, Keeps I (placeLiteral key words undefined)) :
    Consults (.keeping I) (fun _ => True) False where
  note := note
  values := Value.closed_true
  symbol := symbol
  counter counter _ holds := ⟨by cases counter <;> exact holds, trivial⟩
  placeLiteral undefined _ context holds :=
    ⟨(placeLiteral _ _ undefined context holds).1, fun _ _ => trivial⟩

section Symbols

variable {I : Context → Prop} (failed : ∀ kind, Keeps I (error kind))

include failed

/-- A symbol is defined, or there is an error. -/
theorem keeps_defineSymbol (location : String) {value : Value} {redefinable : Bool}
    (defined : ∀ {context : Context} {key : SymbolKey} {symbols : SymbolTable}, I context →
      context.currentModule.symbols.define key value redefinable context.pass = .ok symbols →
      I (context.modifyModule fun module => { module with symbols })) :
    Keeps I (defineSymbol location value redefinable) := by
  unfold defineSymbol
  split
  · exact .pure _
  split
  · exact (failed _).bind fun _ => .pure trivial
  intro context holds
  rw [StateT.run_bind, StateT.run_get, pure_bind]
  dsimp only
  split
  case h_1 symbols made => exact ⟨defined holds made, trivial⟩
  case h_2 kind _ => exact failed kind context holds

/-- A symbol becomes an external of the module, or there is an error. -/
theorem keeps_declareExternal (name : String)
    (declared : ∀ {context : Context} {key : SymbolKey} {symbols : SymbolTable}, I context →
      context.currentModule.symbols.makeExternal key (context.currentModule.externalIndex key) =
        .ok symbols →
      I (context.modifyModule fun module => { module.addExternal key with symbols })) :
    Keeps I (declareExternal name) := by
  intro context holds
  unfold declareExternal
  rw [StateT.run_bind, StateT.run_get, pure_bind]
  dsimp only
  split
  case h_1 symbols made => exact ⟨declared holds made, trivial⟩
  case h_2 kind _ => exact failed kind context holds

/-- A section is there, or becomes the last one of the module, or there is an error. -/
theorem keeps_findOrAddSection (name : String) (type : SectionType) (residency : Residency)
    (added : ∀ {context : Context}, I context →
      context.currentModule.findSection? name type residency = none →
      I (context.modifyModule fun module => module.addSection name type residency)) :
    Keeps I (findOrAddSection name type residency) := by
  intro context holds
  unfold findOrAddSection
  rw [StateT.run_bind, StateT.run_get, pure_bind]
  dsimp only
  split
  case h_1 => exact ⟨holds, trivial⟩
  case h_2 new _ => exact ⟨added holds new, trivial⟩
  case h_3 => exact ⟨(failed _ context holds).1, trivial⟩

end Symbols

section Lines

variable {I : Context → Prop} {V : Value → Prop} (survives : Survives I V)

include survives

theorem Survives.pushFrame (kind : FrameKind) (lines : List String) :
    Keeps I (pushFrame kind lines) := by
  unfold Asm.pushFrame
  split
  · exact .pure _
  · exact survives.modifyStatement fun _ => rfl

theorem Survives.defineMacro (prototype : Prototype) (body : List String) :
    Keeps I (defineMacro prototype body) := by
  refine Gives.bindGet fun context _ => ?_
  refine Gives.complain (survives.warn _) ?_
  exact survives.describe fun _ => ⟨rfl, rfl, rfl, rfl, rfl, rfl, id⟩

theorem Survives.capturePrototype (line : String) : Keeps I (capturePrototype line) := by
  unfold Asm.capturePrototype
  split
  · exact .pure _
  split
  · exact .pure _
  · exact (survives.error _).bind fun _ => .pure trivial

theorem Survives.captureInto (capture : Capture) (line : String) :
    Keeps I (captureInto capture line) := by
  unfold Asm.captureInto
  split
  · exact survives.capturePrototype line
  · split
    · exact (survives.defineMacro _ _).bind fun _ => .pure trivial
    · exact .pure _
  · dsimp only
    split
    · exact (survives.pushFrame _ _).bind fun _ => .pure trivial
    · exact .pure _
  · split
    · exact (survives.pushFrame _ _).bind fun _ => .pure trivial
    · exact .pure _

theorem Survives.captureLine (capture : Capture) (line : String) :
    Keeps I (captureLine capture line) := by
  refine (survives.captureInto capture line).bind fun next => ?_
  exact Keeps.modify fun _ kept => survives.aside .same kept

theorem Survives.skipping (fields : Fields) : Keeps I (skipping fields) := by
  refine Gives.bindGet fun context _ => ?_
  exact (survives.adjust (.skip _)).bind fun _ => .pure trivial

theorem Survives.refuseFrame : Keeps I refuseFrame := by
  refine Gives.bindGet fun context _ => ?_
  split
  · exact (survives.error _).bind fun _ => survives.modifyStatement fun _ => rfl
  · exact .pure trivial
  · exact .pure trivial

/-- What does not look at the counts and reports survives that a statement is recorded. -/
theorem Survives.record (blind : ∀ {context : Context} (tally : Tally) (reports : Array Report),
    I context → I { context with tally, reports }) (statement : StatementState) (text : String)
    (edited : Option String) (origin : Option FrameKind) :
    Keeps I (record statement text edited origin) := by
  have counted : ∀ tally : Context → Tally, Keeps I
      (modify fun context => { context with tally := tally context } : AsmM PUnit) := fun tally =>
    .modify fun context kept => blind (tally context) context.reports kept
  have reported : ∀ report, Keeps I (modify fun context =>
      { context with reports := context.reports.push report } : AsmM PUnit) := fun report =>
    .modify fun context kept => blind context.tally (context.reports.push report) kept
  have listed : ∀ item, Keeps I (modify fun context =>
      { context with listing := context.listing.push item } : AsmM PUnit) := fun _ =>
    .modify fun _ kept => survives.aside .same kept
  refine Gives.bindGet fun context _ => ?_
  refine (counted _).bind fun _ => ?_
  refine Gives.complain (reported _) ?_
  split
  · exact listed _
  · exact .pure trivial

end Lines

section Loose

/-- An invariant to which it does not matter what becomes of a module. -/
structure Loose (I : Context → Prop) : Prop where
  aside : ∀ {context : Context} {statement : StatementState} {qualifier : Setting String}
    {base : Setting NumeralBase} {list : Setting ListFlags} {format : Setting SourceFormat}
    {skip : Option Skip} {capture : Option Capture} {inInstruction : Bool}
    {listing : Array Listing.Item}, context.statement.diagnostics.Noted statement.diagnostics →
    I context → I { context with
      statement, qualifier, base, list, format, skip, capture, inInstruction, listing }
  modifyModule : ∀ change, Keeps I (modifyModule change)

variable {I : Context → Prop} (loose : Loose I)

include loose

theorem Loose.changes : Changes (.keeping I) where
  note _ := Keeps.modify fun _ holds => loose.aside (.insert _) holds
  toSees := sees_keeping
  modifyModule _ _ := loose.modifyModule _

/-- Reading operands changes modules and notes faults, and no more. -/
theorem Loose.survives : Survives I fun _ => True where
  values := Value.closed_true
  aside := loose.aside
  symbol := loose.changes.symbol
  here _ _ _ := trivial
  placeLiteral undefined _ := (loose.changes.consults False).placeLiteral undefined nofun
  defineSymbol location _ redefinable _ := loose.changes.defineSymbol location _ redefinable
  declareEntry := loose.changes.declareEntry
  describe _ := loose.modifyModule _

theorem Loose.reads : Reads (.keeping I) fun _ => True :=
  loose.survives.reads

/-- So does placing. -/
theorem Loose.places : Places (.keeping I) (fun _ => True) True :=
  loose.reads.places loose.changes.modifySection

theorem Loose.roams (selected : ∀ {context : Context} sectionId, I context →
    I { context with sectionId }) : Roams (.keeping I) (fun _ => True) True where
  toPlaces := loose.places
  declareExternal := loose.changes.declareExternal
  findOrAddSection := loose.changes.findOrAddSection
  setSection _ := Keeps.modify fun _ holds => selected _ holds
  nameSection _ _ := .bindGet (fun alike => by rw [alike.baseWord, alike.relocatable]) fun _ =>
    loose.changes.defineSymbol _ _ _

end Loose

end Asm

end CrayAssembler
