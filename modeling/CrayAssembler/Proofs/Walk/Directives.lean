import CrayAssembler.Proofs.Walk.Operands

namespace CrayAssembler

/-- The second module is the first one with other things said of it that have to do with neither
symbols nor sections. It may have become absolute. -/
structure Module.Described (before after : Module) : Prop where
  name : after.name = before.name
  sections : after.sections = before.sections
  symbols : after.symbols = before.symbols
  literals : after.literals = before.literals
  externals : after.externals = before.externals
  ended : after.ended = before.ended
  absolute : before.absolute = true → after.absolute = true

/-- A change of what is said of a module, which has to do with neither symbols nor sections. It does not
look at the macros. -/
structure Module.Describes (change : Module → Module) : Prop where
  described : ∀ module : Module, module.Described (change module)
  macros : ∀ module : Module, (change module).macros = module.macros
  bare : ∀ module : Module, (change module).bare = change module.bare

namespace Module

theorem bare_addExternal (module : Module) (key : SymbolKey) :
    (module.addExternal key).bare = module.bare.addExternal key :=
  apply_ite bare _ _ _

theorem macros_addExternal (module : Module) (key : SymbolKey) :
    (module.addExternal key).macros = module.macros := by
  unfold addExternal
  split <;> rfl

theorem bare_addEntry (module : Module) (key : SymbolKey) :
    (module.addEntry key).bare = module.bare.addEntry key :=
  apply_ite bare _ _ _

theorem macros_addEntry (module : Module) (key : SymbolKey) :
    (module.addEntry key).macros = module.macros := by
  unfold addEntry
  split <;> rfl

end Module

namespace Context

/-- A setting that is to hold from here on. -/
inductive Adjustment
  | qualifier (qualifier : Setting String)
  | base (base : Setting NumeralBase)
  | list (list : Setting ListFlags)
  | format (format : Setting SourceFormat)
  | skip (skip : Option Skip)
  | inInstruction (inInstruction : Bool)

def adjust (context : Context) : Adjustment → Context
  | .qualifier qualifier => { context with qualifier }
  | .base base => { context with base }
  | .list list => { context with list }
  | .format format => { context with format }
  | .skip skip => { context with skip }
  | .inInstruction inInstruction => { context with inInstruction }

end Context

/-- A change of what is shown beside a statement. -/
structure StatementState.Shows (change : StatementState → StatementState) : Prop where
  diagnostics : ∀ statement, (change statement).diagnostics = statement.diagnostics
  apart : ∀ statement line frameChange, change { statement with line, frameChange } =
    { change statement with line, frameChange }

/-- Nothing has been collected yet, and something is to be. -/
def Capture.Begun : Capture → Prop
  | .prototype => True
  | .definition .. => False
  | .group _ _ statements body => statements ≠ some 0 ∧ body = []

namespace Asm

theorem Changes.declareEntry {regard : Regard} (changes : Changes regard) (name : String) :
    regard.Keeps (declareEntry name) := by
  refine .bindGet (fun alike => by rw [alike.qualifier]) fun context => ?_
  refine changes.modifyModule (fun module => ?_) fun module => module.macros_addEntry _
  have added := module.bare_addEntry ⟨context.qualifier.current, name⟩
  exact congrArg (fun changed : Module =>
    { changed with symbols := module.symbols.markEntry ⟨context.qualifier.current, name⟩ }) added

/-- What has to be shown of the parts of directives that stay in the current section and place nothing
there. -/
structure Reads (regard : Regard) (V : Value → Prop) : Prop extends
    Consults regard V True, Sees regard where
  adjust : ∀ adjustment, regard.Keeps (modify (·.adjust adjustment))
  shown : ∀ {change : StatementState → StatementState}, StatementState.Shows change →
    regard.Keeps (modifyStatement change)
  listItem : ∀ item, regard.Keeps (listItem item)
  beginCapture : ∀ {capture : Capture}, capture.Begun → regard.Keeps (beginCapture capture)
  defineWordLabel : ∀ location, regard.Keeps (defineWordLabel location)
  defineParcelLabel : ∀ location, regard.Keeps (defineParcelLabel location)
  defineSymbol : ∀ (location : String) {value : Value} (redefinable : Bool), V value →
    regard.Keeps (defineSymbol location value redefinable)
  declareEntry : ∀ name, regard.Keeps (declareEntry name)
  describe : ∀ {change : Module → Module}, Module.Describes change →
    regard.Keeps (modifyModule change)
  /-- Attributes of a name may be asked for. -/
  attributes : ∀ {α : Type} {next : Context → AsmM α} {Q : α → Prop} (name : String),
    (∀ {here there : Context}, (∀ property,
      attributeHolds? here property name = attributeHolds? there property name) →
      next here = next there) →
    (∀ context, regard.Gives (next context) Q) → regard.Gives (get >>= next) Q

variable {regard : Regard} {V : Value → Prop} (reads : Reads regard V)

include reads

section Conditions

theorem Reads.setSkip (skip : Option Skip) :
    regard.Keeps (modify fun context => { context with skip } : AsmM PUnit) :=
  reads.adjust (.skip skip)

theorem Reads.conclude (fields : Fields) (condition : Bool)
    (part : Option String) : regard.Keeps (conclude fields condition part) := by
  unfold Asm.conclude
  dsimp only
  split
  · exact reads.error _
  split
  · split
    · exact reads.setSkip _
    · exact .pure _
  · refine (reads.absoluteOperand _).bind fun n? => ?_
    cases n? with
    | none => exact .pure trivial
    | some n =>
      dsimp only
      split
      · exact reads.setSkip _
      · exact .pure trivial

theorem Reads.ifAttribute (fields : Fields) : regard.Keeps (ifAttribute fields) := by
  unfold Asm.ifAttribute
  split
  case h_1 property name rest _ =>
    split
    · exact reads.error _
    · refine reads.attributes name (fun same => ?_) fun context => ?_
      · unfold Asm.attributeCondition?
        simp only [same]
      split
      · exact reads.conclude fields _ _
      · exact reads.error _
  case h_2 => exact reads.error _

theorem Reads.ifText (fields : Fields) : regard.Keeps (ifText fields) := by
  unfold Asm.ifText
  split
  · split
    · exact reads.error _
    · split
      · exact reads.error _
      · exact reads.conclude fields _ _
  · exact reads.error _

theorem Reads.ifExpression (fields : Fields) : regard.Keeps (ifExpression fields) := by
  unfold Asm.ifExpression
  split
  · split
    · exact reads.error _
    · refine (reads.expressionCondition _ _ _).bind fun holds? => ?_
      cases holds? with
      | none => exact .pure trivial
      | some holds => exact reads.conclude fields holds _
  · exact reads.error _

theorem Reads.otherwise (fields : Fields) : regard.Keeps (otherwise fields) := by
  unfold Asm.otherwise
  split
  · exact reads.error _
  · exact (reads.noOperand fields).bind fun _ => reads.setSkip _

theorem Reads.endCondition (fields : Fields) : regard.Keeps (endCondition fields) :=
  .complain (reads.error _) (reads.noOperand fields)

theorem Reads.skipStatements (fields : Fields) : regard.Keeps (skipStatements fields) := by
  unfold Asm.skipStatements
  dsimp only
  split
  · exact reads.error _
  · exact reads.conclude fields _ _

theorem Reads.errorIf (fields : Fields) : regard.Keeps (errorIf fields) := by
  refine (reads.ignoreLocation fields).bind fun _ => ?_
  split
  · refine (reads.expressionCondition _ _ _).bind fun _ => ?_
    split
    · exact reads.error _
    · exact .pure trivial
  · exact reads.error _

theorem Reads.raise (fields : Fields) : regard.Keeps (raise fields) := by
  refine (reads.noOperand fields).bind fun _ => ?_
  split
  · exact reads.error _
  · split
    · exact reads.error _
    · exact reads.warn _
    · exact reads.error _
  · exact reads.error _

end Conditions

section Captures

theorem Reads.beginDefinition (fields : Fields) : regard.Keeps (beginDefinition fields) := by
  refine (reads.ignoreLocation fields).bind fun _ => ?_
  exact (reads.noOperand fields).bind fun _ => reads.beginCapture trivial

theorem Reads.captureGroup (name count : String) (statements : Option Nat) :
    regard.Keeps (captureGroup name count statements) := by
  unfold Asm.captureGroup
  split
  · exact reads.error _
  · refine (reads.absoluteOperand count).bind fun _ => ?_
    dsimp only
    split
    case isTrue some => exact reads.beginCapture ⟨some, rfl⟩
    case isFalse => exact .pure trivial

theorem Reads.beginGroup (fields : Fields) : regard.Keeps (beginGroup fields) := by
  unfold Asm.beginGroup
  dsimp only
  split
  · exact reads.error _
  split
  · exact reads.captureGroup _ _ _
  · refine (reads.absoluteOperand _).bind fun n? => ?_
    cases n? with
    | none => exact .pure trivial
    | some n => exact reads.captureGroup _ _ _
  · exact reads.error _

end Captures

section Settings

omit reads in
theorem Faults.change {α : Type} (faults : Faults regard) (outcome : Except StackError (Setting α))
    {put : Setting α → Context → Context}
    (kept : ∀ setting, regard.Keeps (modify (put setting))) : regard.Keeps (change outcome put) := by
  unfold Asm.change
  split
  · exact kept _
  · exact faults.error _

theorem Reads.setList (fields : Fields) : regard.Keeps (setList fields) := by
  refine .bindGet (fun alike => by rw [alike.list]) fun context => ?_
  dsimp only
  split
  · exact reads.change _ fun list => reads.adjust (.list list)
  split
  · exact reads.change _ fun list => reads.adjust (.list list)
  · exact reads.error _

theorem Reads.heading (fields : Fields) (item : String → Listing.Item) :
    regard.Keeps (heading fields item) := by
  refine (reads.ignoreLocation fields).bind fun _ => ?_
  split
  · exact reads.listItem _
  split
  · exact reads.listItem _
  · exact reads.error _

theorem Reads.listWhenOn (item : Listing.Item) : regard.Keeps (listWhenOn item) := by
  refine .bindGet (fun alike => by rw [alike.list]) fun context => ?_
  split
  · exact reads.listItem _
  · exact .pure trivial

theorem Reads.space (fields : Fields) : regard.Keeps (space fields) := by
  refine (reads.ignoreLocation fields).bind fun _ => ?_
  split
  · exact reads.listWhenOn _
  · refine (reads.absoluteOperand _).bind fun lines? => ?_
    cases lines? with
    | none => exact .pure trivial
    | some lines => exact reads.listWhenOn _

theorem Reads.eject (fields : Fields) : regard.Keeps (eject fields) := by
  refine (reads.ignoreLocation fields).bind fun _ => ?_
  exact (reads.noOperand fields).bind fun _ => reads.listWhenOn _

theorem Reads.setQualifier (fields : Fields) : regard.Keeps (setQualifier fields) := by
  refine (reads.ignoreLocation fields).bind fun _ => ?_
  refine .bindGet (fun alike => by rw [alike.qualifier]) fun context => ?_
  dsimp only
  split
  · exact reads.change _ fun qualifier => reads.adjust (.qualifier qualifier)
  split
  · exact reads.change _ fun qualifier => reads.adjust (.qualifier qualifier)
  · exact reads.error _

theorem Reads.changeNamed {α : Type} (fields : Fields) (ofOperand? : String → Option α)
    {view : Context → Setting α} {put : Setting α → Context → Context}
    (seen : ∀ {here there}, Context.Resembles here there → view here = view there)
    (kept : ∀ setting, regard.Keeps (modify (put setting))) :
    regard.Keeps (changeNamed fields ofOperand? view put) := by
  refine (reads.ignoreLocation fields).bind fun _ => ?_
  refine .bindGet (fun alike => by rw [seen alike]) fun context => ?_
  dsimp only
  split
  · exact reads.change _ kept
  split
  · exact reads.change _ kept
  · exact reads.error _

theorem Reads.setBase (fields : Fields) : regard.Keeps (setBase fields) :=
  reads.changeNamed fields _ (·.base) fun base => reads.adjust (.base base)

theorem Reads.setFormat (fields : Fields) : regard.Keeps (setFormat fields) :=
  reads.changeNamed fields _ (·.format) fun format => reads.adjust (.format format)

end Settings

section Symbols

theorem Reads.defineShown (location : String) {value : Value}
    (fitting : V value) (redefinable : Bool) : regard.Keeps (defineShown location value redefinable) :=
  .bind (reads.shown ⟨fun _ => rfl, fun _ _ _ => rfl⟩) fun _ => reads.defineSymbol _ _ fitting

theorem Reads.equate (redefinable : Bool) (fields : Fields) :
    regard.Keeps (equate redefinable fields) := by
  unfold Asm.equate
  split
  · exact reads.error _
  · refine (reads.evaluateOperand _).bind fun evaluation? known => ?_
    cases evaluation? with
    | none => exact .pure trivial
    | some evaluation => exact reads.defineShown _ (known evaluation rfl) redefinable

theorem Reads.defineMicroSize (fields : Fields) : regard.Keeps (defineMicroSize fields) := by
  unfold Asm.defineMicroSize
  split
  · exact reads.error _
  split
  · exact reads.error _
  · refine .bindGet (fun alike => by rw [alike.micro]) fun context => ?_
    split
    · exact reads.defineShown _ (reads.values.absolute _) true
    · refine (reads.warn _).bind fun _ => ?_
      exact reads.defineShown _ (reads.values.absolute _) true

theorem Reads.nameList (fields : Fields) : regard.Keeps (nameList fields) := by
  unfold Asm.nameList
  dsimp only
  split
  · exact (reads.error _).bind fun _ => .pure trivial
  · exact .pure _

theorem Reads.declareEntries (fields : Fields) : regard.Keeps (declareEntries fields) := by
  refine (reads.ignoreLocation fields).bind fun _ => ?_
  refine (reads.nameList fields).bind fun names? => ?_
  cases names? with
  | none => exact .pure trivial
  | some names => exact Regard.Keeps.forM fun name _ => reads.declareEntry name

theorem Reads.putMicro (name text : String) : regard.Keeps (putMicro name text) :=
  reads.describe ⟨fun _ => ⟨rfl, rfl, rfl, rfl, rfl, rfl, id⟩, fun _ => rfl, fun _ => rfl⟩

theorem Reads.optionalNumber (part : Option String) (default : Nat) :
    regard.Keeps (optionalNumber part default) := by
  unfold Asm.optionalNumber
  split
  · exact .pure _
  · exact (reads.absoluteOperand _).bind fun _ => .pure trivial

theorem Reads.selectMicro (name : String) (text : List Char)
    (parts : List String) : regard.Keeps (selectMicro name text parts) := by
  refine (reads.optionalNumber _ _).bind fun count? => ?_
  cases count? with
  | none => exact .pure trivial
  | some count =>
    refine (reads.optionalNumber _ _).bind fun start? => ?_
    cases start? with
    | none => exact .pure trivial
    | some first =>
      dsimp only
      split
      · exact reads.error _
      · exact reads.putMicro _ _

theorem Reads.defineMicro (fields : Fields) : regard.Keeps (defineMicro fields) := by
  unfold Asm.defineMicro
  dsimp only
  split
  · exact reads.error _
  split
  · exact reads.describe ⟨fun _ => ⟨rfl, rfl, rfl, rfl, rfl, rfl, id⟩, fun _ => rfl, fun _ => rfl⟩
  · split
    · exact reads.error _
    · exact reads.selectMicro _ _ _

theorem Reads.defineNumericMicro (render : Word → String) (fields : Fields) :
    regard.Keeps (defineNumericMicro render fields) := by
  unfold Asm.defineNumericMicro
  dsimp only
  split
  · exact reads.error _
  split
  · split
    · exact reads.error _
    refine (reads.evaluateOperand _).keeps.bind fun evaluation? => ?_
    cases evaluation? with
    | none => exact .pure trivial
    | some evaluation =>
      dsimp only
      split
      · exact reads.error _
      split
      · exact reads.putMicro _ _
      · refine (reads.absoluteOperand _).bind fun width? => ?_
        cases width? with
        | none => exact .pure trivial
        | some width =>
          dsimp only
          split
          · exact reads.putMicro _ _
          · exact (reads.error _).bind fun _ => reads.putMicro _ _
  · exact reads.error _

theorem Reads.defineSynonym (fields : Fields) : regard.Keeps (defineSynonym fields) := by
  unfold Asm.defineSynonym
  dsimp only
  split
  · exact reads.error _
  split
  · exact reads.error _
  · refine .bindGet (fun alike => by rw [alike.synonym]) fun context => ?_
    split
    · exact reads.describe ⟨fun _ => ⟨rfl, rfl, rfl, rfl, rfl, rfl, id⟩, fun _ => rfl, fun _ => rfl⟩
    · exact .pure trivial

end Symbols

section Modules

theorem Reads.makeAbsolute (fields : Fields) : regard.Keeps (makeAbsolute fields) := by
  refine (reads.ignoreLocation fields).bind fun _ => ?_
  refine (reads.noOperand fields).bind fun _ => ?_
  exact reads.describe ⟨fun _ => ⟨rfl, rfl, rfl, rfl, rfl, rfl, fun _ => rfl⟩, fun _ => rfl, fun _ => rfl⟩

theorem Reads.setComment (fields : Fields) : regard.Keeps (setComment fields) := by
  refine (reads.ignoreLocation fields).bind fun _ => ?_
  split
  · exact reads.describe ⟨fun _ => ⟨rfl, rfl, rfl, rfl, rfl, rfl, id⟩, fun _ => rfl, fun _ => rfl⟩
  · exact reads.error _

theorem Reads.addStack (fields : Fields) : regard.Keeps (addStack fields) := by
  refine (reads.ignoreLocation fields).bind fun _ => ?_
  refine (reads.absoluteOperand _).bind fun words? => ?_
  cases words? with
  | none => exact .pure trivial
  | some words =>
    refine reads.view (fun _ => rfl) fun context => ?_
    split
    · exact reads.describe ⟨fun _ => ⟨rfl, rfl, rfl, rfl, rfl, rfl, id⟩, fun _ => rfl, fun _ => rfl⟩
    · exact .pure trivial

theorem Reads.setStart (fields : Fields) : regard.Keeps (setStart fields) := by
  refine (reads.ignoreLocation fields).bind fun _ => ?_
  refine reads.view (fun context => ?_) fun context => ?_
  · rw [context.currentModule_sight, context.resolve_sight]
    rfl
  dsimp only
  split
  · exact reads.error _
  split
  · split
    · exact reads.describe ⟨fun _ => ⟨rfl, rfl, rfl, rfl, rfl, rfl, id⟩, fun _ => rfl, fun _ => rfl⟩
    · exact reads.error _
  · exact .pure trivial

end Modules

end Asm

end CrayAssembler
