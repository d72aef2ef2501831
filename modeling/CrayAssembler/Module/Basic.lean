import CrayAssembler.Module.LiteralPool
import CrayAssembler.Section.Basic
import CrayAssembler.Symbol.Table

namespace CrayAssembler

/-- The section that is current when a module starts. -/
def nominalSection : SectionId := 0

/-- The section of the literal pool. -/
def literalsSection : SectionId := 1

/-- A map from names. -/
abbrev NameMap (α : Type) := Std.TreeMap String α

structure Module where
  name : String
  absolute : Bool
  stackSize : Nat
  comment : String
  sections : List Section
  symbols : SymbolTable
  macros : NameMap MacroDefinition
  micros : NameMap String
  /-- Other names of operations. -/
  synonyms : NameMap String
  literals : LiteralPool
  start : Option SymbolKey
  /-- Entry points in the order in which they were declared. -/
  entries : List SymbolKey
  /-- External symbols; a symbol's place here is its external index. -/
  externals : List SymbolKey
  /-- The end of the module was seen in this pass. -/
  ended : Bool
deriving Inhabited

namespace Module

def make (name : String) : Module :=
  { name
    absolute := false
    stackSize := 0
    comment := ""
    sections := [.make "" .mixed .cm, .make "=" .data .cm]
    symbols := .empty
    macros := ∅
    micros := ∅
    synonyms := ∅
    literals := .empty
    start := none
    entries := []
    externals := []
    ended := false }

def section? (module : Module) (id : SectionId) : Option Section :=
  module.sections[id]?

/-- A section; an empty one when there is none with this place. -/
def getSection (module : Module) (id : SectionId) : Section :=
  module.sections.getD id (.make "" .mixed .cm)

def modifySection (module : Module) (id : SectionId) (change : Section → Section) : Module :=
  { module with sections := module.sections.modify id change }

def findSection? (module : Module) (name : String) (type : SectionType) (residency : Residency) :
    Option SectionId :=
  module.sections.findIdx? fun sec =>
    sec.name = name && sec.type = type && sec.residency = residency

/-- Add a section after the others. -/
def addSection (module : Module) (name : String) (type : SectionType) (residency : Residency) :
    Module :=
  { module with sections := module.sections ++ [.make name type residency] }

/-- Place of a symbol in the list of externals, or the place it would get. -/
def externalIndex (module : Module) (key : SymbolKey) : Nat :=
  module.externals.idxOf key

/-- Add a symbol to the externals, once. -/
def addExternal (module : Module) (key : SymbolKey) : Module :=
  if module.externals.contains key then module
  else { module with externals := module.externals ++ [key] }

/-- Add a symbol to the entry points, once. -/
def addEntry (module : Module) (key : SymbolKey) : Module :=
  if module.entries.contains key then module
  else { module with entries := module.entries ++ [key] }

/-- Whether the module gives no object code. -/
def isEmpty (module : Module) : Bool :=
  module.sections.all (fun sec => sec.size = 0) && module.entries.isEmpty &&
    module.externals.isEmpty

/-- Lay sections out one after another from word `next` on. A section that a statement placed stays
where it is, and those after it start past its end. -/
def layOutFrom (next : Nat) : List Section → List Section
  | [] => []
  | sec :: rest =>
    if sec.placed then
      let here := { sec with originOffset := 0 }
      here :: layOutFrom (max next here.endWord) rest
    else { sec with originOffset := next } :: layOutFrom (next + sec.size) rest

/-- What is done between the passes: the sections of an absolute module are laid out, symbols are
moved with them, and everything is set back for pass 2. -/
def preparePassTwo (module : Module) : Module :=
  let sections := if module.absolute then layOutFrom 0 module.sections else module.sections
  let offsets := sections.map (·.originOffset)
  { module with
    sections := sections.map Section.restart
    symbols := module.symbols.adjust fun id => offsets.getD id 0
    micros := ∅
    synonyms := ∅
    ended := false }

/-- The layout from word `next` on, if the words that are laid out do not run over. -/
def layOutFrom? (next : Nat) : List Section → Option (List Section)
  | [] => some []
  | sec :: rest =>
    if sec.placed then
      let here := { sec with originOffset := 0 }
      (layOutFrom? (max next here.endWord) rest).map (here :: ·)
    else do
      let past ← counted? (next + sec.size)
      let laid ← layOutFrom? past rest
      return { sec with originOffset := next } :: laid

/-- What is done between the passes with counters of 64 bits: nothing comes of it if one of them runs
over. -/
def preparePassTwo? (module : Module) : Option Module := do
  let laid ← if module.absolute then layOutFrom? 0 module.sections else some module.sections
  let offsets := laid.map (·.originOffset)
  let symbols ← module.symbols.adjust? fun id => offsets.getD id 0
  let sections ← laid.mapM Section.restart?
  return { module with sections, symbols, micros := ∅, synonyms := ∅, ended := false }

/-- Symbols still undefined become externals, entry points excepted. -/
def declareImplicitExternals (module : Module) : Module :=
  module.symbols.undefined.foldl (fun module key =>
    if (module.symbols.get? key).any (·.attributes.entry) then module
    else
      match module.symbols.makeExternal key (module.externalIndex key) with
      | .ok symbols => { module.addExternal key with symbols }
      | .error _ => module.addExternal key) module

end Module

end CrayAssembler
