import CrayAssembler.Assembly.Basic
import CrayAssembler.Proofs.Walk.Placing

namespace CrayAssembler

/-- Directives that go to another module or section, or add to the externals of a module. -/
def Directive.roaming : List Directive :=
  [.openModule, .endModule, .openSection, .openBlock, .openCommon, .declareExternals]

namespace Asm

/-- What all other directives do stays in the current section of the current module. -/
theorem Places.directive {regard : Regard} {V : Value → Prop} {image : Prop}
    (places : Places regard V image) {directive : Directive} (stays : directive ∉ Directive.roaming)
    (fields : Fields) : regard.Keeps (directive.run fields) := by
  cases directive with
  | openModule => exact absurd (by decide) stays
  | endModule => exact absurd (by decide) stays
  | makeAbsolute => exact places.makeAbsolute fields
  | setComment => exact places.setComment fields
  | addStack => exact places.addStack fields
  | setStart => exact places.setStart fields
  | openSection => exact absurd (by decide) stays
  | openBlock => exact absurd (by decide) stays
  | openCommon => exact absurd (by decide) stays
  | setQualifier => exact places.setQualifier fields
  | setBase => exact places.setBase fields
  | setFormat => exact places.setFormat fields
  | setLocation => exact places.setLocation fields
  | setOrigin => exact places.setOrigin fields
  | reserveWords => exact places.reserveWords fields
  | reserveZeros => exact places.reserveZeros fields
  | align => exact places.align fields
  | reachWordBit => exact places.reachWordBit fields
  | reachParcelBit => exact places.reachParcelBit fields
  | equate => exact places.equate false fields
  | setValue => exact places.equate true fields
  | defineMicroSize => exact places.defineMicroSize fields
  | declareExternals => exact absurd (by decide) stays
  | declareEntries => exact places.declareEntries fields
  | defineMicro => exact places.defineMicro fields
  | defineDecimalMicro => exact places.defineNumericMicro signedDecimal fields
  | defineOctalMicro => exact places.defineNumericMicro (fun word => Text.octal 1 word.toNat) fields
  | defineSynonym => exact places.defineSynonym fields
  | data => exact places.data fields
  | constants => exact places.constants fields
  | variableFields => exact places.variableFields fields
  | ifAttribute => exact places.ifAttribute fields
  | ifText => exact places.ifText fields
  | ifExpression => exact places.ifExpression fields
  | otherwise => exact places.otherwise fields
  | endCondition => exact places.endCondition fields
  | skipStatements => exact places.skipStatements fields
  | errorIf => exact places.errorIf fields
  | raise => exact places.raise fields
  | setList => exact places.setList fields
  | title => exact places.heading fields .title
  | subtitle => exact places.heading fields .subtitle
  | space => exact places.space fields
  | eject => exact places.eject fields
  | listedText => exact .pure _
  | beginDefinition => exact places.beginDefinition fields
  | strayEnd => exact places.error .illegalNesting
  | beginGroup => exact places.beginGroup fields
  | unavailable => exact places.error .resultField

/-- What has to be shown beyond the placing of fields where statements go to any section of the current
module. -/
structure Roams (regard : Regard) (V : Value → Prop) (image : Prop) : Prop extends
    Places regard V image where
  declareExternal : ∀ name, regard.Keeps (declareExternal name)
  findOrAddSection : ∀ name type residency, regard.Keeps (findOrAddSection name type residency)
  setSection : ∀ change : Setting SectionId → Setting SectionId,
    regard.Keeps (modify fun context => { context with sectionId := change context.sectionId })
  /-- The name of a section is defined as its base. -/
  nameSection : ∀ location id, regard.Keeps (do
    let context ← get
    let base := UInt64.ofNat context.currentSection.baseWord
    Asm.defineSymbol location (.address .word id base context.relocatable) false)

section Sections

variable {regard : Regard} {V : Value → Prop} {image : Prop} (roams : Roams regard V image)

include roams

theorem Roams.declareExternals (fields : Fields) : regard.Keeps (declareExternals fields) := by
  refine (roams.ignoreLocation fields).bind fun _ => ?_
  refine (roams.nameList fields).bind fun names? => ?_
  cases names? with
  | none => exact .pure trivial
  | some names =>
    refine .bindGet (fun alike => by rw [alike.absolute]) fun context => ?_
    refine .complain (roams.warn _) ?_
    exact Regard.Keeps.forM fun name _ => roams.declareExternal name

theorem Roams.selectSection (id : SectionId) : regard.Keeps (selectSection id) := by
  refine .bindGet (fun alike => by rw [alike.settings, alike.sectionId]) fun context => ?_
  split
  · exact roams.setSection fun sectionId => { sectionId with current := id }
  · exact roams.change _ fun sectionId => roams.setSection fun _ => sectionId

theorem Roams.previousSection : regard.Keeps previousSection := by
  refine .bindGet (fun alike => by rw [alike.settings, alike.sectionId]) fun context => ?_
  split
  · exact roams.setSection fun sectionId => { sectionId with current := nominalSection }
  · exact roams.change _ fun sectionId => roams.setSection fun _ => sectionId

theorem Roams.openSection (fields : Fields) : regard.Keeps (openSection fields) := by
  unfold Asm.openSection
  dsimp only
  split
  · exact (roams.ignoreLocation fields).bind fun _ => roams.previousSection
  split
  · exact roams.error _
  split
  · exact roams.error _
  refine (roams.findOrAddSection _ _ _).bind fun id? => ?_
  cases id? with
  | none => exact .pure trivial
  | some id =>
    refine (roams.selectSection id).bind fun _ => ?_
    split
    · exact roams.nameSection _ _
    · exact .pure trivial

theorem Roams.openNamed (type : SectionType) (fields : Fields) :
    regard.Keeps (openNamed type fields) := by
  refine (roams.ignoreLocation fields).bind fun _ => ?_
  dsimp only
  split
  · exact roams.previousSection
  split
  · refine (roams.findOrAddSection _ _ _).bind fun id? => ?_
    cases id? with
    | none => exact .pure trivial
    | some id => exact roams.selectSection id
  · exact roams.error _

theorem Roams.directive {directive : Directive} (opens : directive ≠ .openModule)
    (closes : directive ≠ .endModule) (fields : Fields) : regard.Keeps (directive.run fields) := by
  cases directive with
  | openModule => exact absurd rfl opens
  | endModule => exact absurd rfl closes
  | openSection => exact roams.openSection fields
  | openBlock => exact roams.openNamed .mixed fields
  | openCommon => exact roams.openNamed .common fields
  | declareExternals => exact roams.declareExternals fields
  | _ => exact roams.toPlaces.directive (by decide) fields

end Sections

section Changes

variable {regard : Regard} (changes : Changes regard)

include changes

theorem Changes.declareExternal (name : String) : regard.Keeps (declareExternal name) := by
  refine changes.view (fun context => by rw [context.currentModule_sight]; rfl) fun context => ?_
  dsimp only
  split
  case h_1 key symbols _ =>
    refine changes.modifyModule (fun module => ?_) fun module => module.macros_addExternal _
    exact congrArg (fun module : Module => { module with symbols }) (module.bare_addExternal _)
  case h_2 => exact changes.error _

theorem Changes.findOrAddSection (name : String) (type : SectionType) (residency : Residency) :
    regard.Keeps (findOrAddSection name type residency) := by
  refine changes.view (fun context => by rw [context.currentModule_sight]; rfl) fun context => ?_
  dsimp only
  split
  · exact .pure trivial
  · exact Regard.Keeps.bind (changes.modifyModule (fun _ => rfl) fun _ => rfl) fun _ => .pure trivial
  · exact changes.fail _ _

end Changes

/-- Modules may be added, entered and closed. -/
structure Moves (regard : Regard) : Prop extends Faults regard, Sees regard where
  addModule : ∀ name, regard.Keeps
    (modify fun context => { context with modules := context.modules ++ [.make name] })
  enterModule : ∀ index, regard.Keeps (enterModule index)
  closeModule : regard.Keeps closeModule

section Modules

variable {regard : Regard} (moves : Moves regard)

include moves

theorem Moves.openModule (fields : Fields) : regard.Keeps (openModule fields) := by
  refine (moves.ignoreLocation fields).bind fun _ => ?_
  refine moves.view (fun context => ?_) fun context => ?_
  · have known (index : Nat) : context.sight.modules[index]? =
        (context.modules[index]?).map Module.bare := List.getElem?_map
    have others : (context.sight.modules.drop 1).any (·.name = fields.operand) =
        (context.modules.drop 1).any (·.name = fields.operand) := by
      change ((context.modules.map Module.bare).drop 1).any _ = _
      rw [← List.map_drop, List.any_map]
      rfl
    have length : context.sight.modules.length = context.modules.length := List.length_map ..
    dsimp only
    rw [others, length, known, Option.any_map]
    rfl
  · dsimp only
    split
    · exact moves.error _
    split
    · exact moves.error _
    split
    · split
      · exact moves.error _
      · exact (moves.addModule _).bind fun _ => moves.enterModule _
    · split
      · exact moves.enterModule _
      · exact moves.error _

theorem Moves.endModule (fields : Fields) : regard.Keeps (endModule fields) := by
  refine (moves.ignoreLocation fields).bind fun _ => ?_
  refine (moves.noOperand fields).bind fun _ => ?_
  refine moves.view (fun _ => rfl) fun context => ?_
  split
  · exact moves.error _
  · exact moves.closeModule.bind fun _ => moves.note _

end Modules

section Frames

variable (regard : Regard)

/-- Lines are assembled one after another, with the frames that they give. -/
theorem Regard.runLines {assemble : String → AsmM FrameChange} {enter : Frame → AsmM Bool}
    (each : ∀ line, regard.Keeps (assemble line)) (nested : ∀ frame, regard.Keeps (enter frame))
    (lines : List String) : regard.Keeps (Frame.runLines assemble enter lines) := by
  induction lines with
  | nil => exact .pure _
  | cons line lines ih =>
    refine (each line).bind fun change => ?_
    cases change with
    | keep => exact ih
    | clear => exact .pure trivial
    | push frame =>
      refine (nested frame).bind fun dropped => ?_
      cases dropped with
      | true => exact .pure trivial
      | false => exact ih

theorem Regard.runFrame {assemble : Nat → Frame → String → AsmM FrameChange}
    (each : ∀ room frame line, regard.Keeps (assemble room frame line)) (room : Nat) (frame : Frame) :
    regard.Keeps (Frame.run assemble room frame) := by
  induction room generalizing frame with
  | zero => exact regard.runLines (each 0 frame) (fun _ => .pure _) frame.lines
  | succ room ih => exact regard.runLines (each (room + 1) frame) ih frame.lines

/-- What is shown of all statements is shown of a line of the source and all lines that it
generates. -/
theorem Regard.sourceLine (each : ∀ number text origin truncated mayNest,
    regard.Keeps (assembleStatement number text origin truncated mayNest)) (line : SourceLine) :
    regard.Keeps (assembleSourceLine line) := by
  refine (each line.number line.text none line.truncated true).bind fun change => ?_
  cases change with
  | keep => exact .pure trivial
  | clear => exact .pure trivial
  | push frame =>
    exact (regard.runFrame (fun _ _ _ => each _ _ _ _ _) _ frame).bind fun _ => .pure trivial

end Frames

end Asm

end CrayAssembler
