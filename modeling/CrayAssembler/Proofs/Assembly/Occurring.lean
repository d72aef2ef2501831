import CrayAssembler.Proofs.Assembly.Emission
import CrayAssembler.Proofs.Assembly.Reports
import CrayAssembler.Proofs.Assembly.Traits
import CrayAssembler.Proofs.Symbol.Externals
import CrayAssembler.Proofs.Value.WellFormed

namespace CrayAssembler

namespace Asm

/-- All modules have a trait. -/
def Everywhere (trait : Trait) (context : Context) : Prop :=
  ∀ index, index < context.modules.length → trait.ofModule (context.moduleAt index)

section Everywhere

variable {trait : Trait} {context after : Context}

theorem Everywhere.bears (everywhere : Everywhere trait context) {index : Nat}
    (known : index < context.modules.length) : Bears trait index context :=
  ⟨known, everywhere index known⟩

/-- A trait of all modules stays where each module keeps it and none is added. -/
theorem Everywhere.of_bears (everywhere : Everywhere trait context)
    (length : after.modules.length = context.modules.length)
    (kept : ∀ index, Bears trait index context → Bears trait index after) :
    Everywhere trait after :=
  fun index known => (kept index (everywhere.bears (length ▸ known))).holds

theorem Everywhere.aside (everywhere : Everywhere trait context)
    (modules : after.modules = context.modules) : Everywhere trait after :=
  everywhere.of_bears (congrArg _ modules) fun _ bears => bears.aside modules

/-- Statements that stay in their module add none. -/
theorem loose_length (count : Nat) : Loose fun context => context.modules.length = count where
  aside _ same := same
  modifyModule change := .modify fun context same =>
    (List.length_modify change context.modules context.moduleIndex).trans same

theorem persists_everywhere (fresh : ∀ name, trait.ofModule (.make name)) :
    Persists (Everywhere trait) where
  inside keeps context everywhere := by
    have length := (keeps _ _ _ (loose_length context.modules.length).survives
      ((loose_length context.modules.length).roams fun _ same => same) context rfl).1
    exact ⟨everywhere.of_bears length fun index bears =>
      (persists_bears.inside keeps context bears).1, trivial⟩
  closable :=
    { aside := fun _ _ everywhere => everywhere.aside rfl
      placeLiterals := fun everywhere => everywhere.of_bears (List.length_modify _ _ _)
        fun _ bears => closable_bears.placeLiterals bears
      produce := fun _ everywhere => everywhere.aside rfl }
  addModule {context} name everywhere := by
    intro index known
    rcases Nat.lt_or_ge index context.modules.length with inside | beyond
    · exact (persists_bears.addModule name (everywhere.bears inside)).holds
    · rw [List.length_append, List.length_singleton] at known
      obtain rfl : index = context.modules.length := by omega
      unfold Context.moduleAt
      rw [List.getD_eq_getElem?_getD, List.getElem?_append_right beyond, Nat.sub_self]
      exact fresh name
  enter _ everywhere := everywhere.aside rfl

theorem modules_finishStatement (text : String) (edited : Option String) (origin : Option FrameKind)
    (context : Context) :
    ((finishStatement text edited origin).run context).2.modules = context.modules := by
  obtain ⟨listing, finished⟩ := finishStatement_eq text edited origin context
  have next : (if context.statement.diagnostics.contains .moduleEnd then context.rest.left
      else context.rest).modules = context.modules := by
    split <;> rfl
  rw [finished]
  unfold Context.finished
  dsimp only
  split
  · exact next
  · exact next

theorem assembles_everywhere (fresh : ∀ name, trait.ofModule (.make name)) :
    Assembles (Everywhere trait) (Everywhere trait) :=
  (persists_everywhere fresh).assembles fun text edited origin context everywhere =>
    ⟨everywhere.aside (modules_finishStatement text edited origin context), trivial⟩

theorem everywhere_assembleStatement (fresh : ∀ name, trait.ofModule (.make name))
    (number : LineNumber) (text : String) (origin : Option FrameKind) (truncated mayNest : Bool) :
    Keeps (Everywhere trait) (assembleStatement number text origin truncated mayNest) :=
  (assembles_everywhere fresh).assembleStatement number text origin truncated mayNest

theorem everywhere_finishPass (fresh : ∀ name, trait.ofModule (.make name)) (line : LineNumber) :
    Keeps (Everywhere trait) (finishPass line) :=
  ((assembles_everywhere fresh).finishPass line (takes_closeAnonymousModule line
    (fun _ everywhere => everywhere.aside rfl) (persists_everywhere fresh).closable
    fun _ _ everywhere => everywhere.aside rfl)).keeps

/-- What is done between the passes is done to each module. -/
theorem Everywhere.betweenPasses (everywhere : Everywhere trait context)
    (prepared : ∀ {module}, trait.ofModule module → trait.ofModule module.preparePassTwo) :
    Everywhere trait (Asm.betweenPasses context) := by
  intro index known
  have inside : index < context.modules.length := Nat.lt_of_lt_of_eq known (List.length_map ..)
  rw [moduleAt_betweenPasses, if_pos inside]
  have held := everywhere index inside
  split
  · exact prepared (Module.declareImplicitExternals_induction held fun held made =>
      trait.declareExternal held made)
  · exact prepared held

end Everywhere

end Asm

/-- The values of all symbols are proper and, unless the module is absolute, no section is displaced. -/
structure Module.Formed (module : Module) : Prop where
  symbols : module.symbols.Each Value.Proper
  offsets : module.absolute = false → ∀ sec ∈ module.sections, sec.originOffset = 0

theorem Value.closed_proper : Value.Closed Value.Proper where
  absolute n := (wellFormed_absolute n).proper_of_internal rfl
  float x := (wellFormed_float x).proper_of_internal rfl
  undefined := proper_undefined
  unary op _ _ proper computed := proper.unary op computed
  binary op _ _ _ left right computed := left.binary op right computed
  used proper := proper.of_same proper.ofValue rfl rfl
  convert kind numeric _ proper :=
    proper.of_same ((proper.withNumeric numeric).withAddressKind kind) rfl rfl

theorem Value.lasting_proper : Value.Lasting Value.Proper where
  undefined := proper_undefined
  external index := (wellFormed_ofExternal index).proper_of_defined rfl
  same {value other} proper bare := by
    have units : other.attributes.unitCount = value.attributes.unitCount :=
      congrArg (·.attributes.unitCount) bare
    have formed : other.WellFormed := proper.toWellFormed.of_same (congrArg (·.kind) bare)
      (units ▸ proper.units) (congrArg (·.attributes.relocatable) bare)
      (congrArg (·.attributes.external) bare) (congrArg (·.home) bare) (congrArg (·.external) bare)
      fun _ => congrArg (·.coefficient) bare
    exact proper.of_same formed (congrArg (·.attributes.external) bare)
      (congrArg (·.attributes.undefined) bare)
  moved n _ proper := proper.of_same (proper.withNumeric n) rfl rfl

namespace Module

variable {module other : Module}

theorem formed_make (name : String) : (make name).Formed where
  symbols _ := Value.proper_undefined
  offsets _ sec member := by
    rcases List.mem_pair.mp member with rfl | rfl <;> rfl

theorem Formed.of_sections (formed : module.Formed) (symbols : other.symbols.Each Value.Proper)
    (sections : other.sections = module.sections)
    (absolute : module.absolute = true → other.absolute = true) : other.Formed where
  symbols := symbols
  offsets relocatable := by
    rw [sections]
    refine formed.offsets (eq_false_of_ne_true fun fixed => ?_)
    nomatch relocatable.symm.trans (absolute fixed)

theorem Formed.modifySection (formed : module.Formed) {id : SectionId} {change : Section → Section}
    (kept : ∀ sec, module.section? id = some sec → (change sec).originOffset = sec.originOffset) :
    (module.modifySection id change).Formed where
  symbols := formed.symbols
  offsets relocatable sec member := by
    obtain ⟨place, found⟩ := List.getElem?_of_mem member
    rw [show (module.modifySection id change).sections[place]? = _ from
      Module.section?_modifySection ..] at found
    obtain ⟨old, lookup, rfl⟩ := Option.map_eq_some_iff.mp found
    have before := formed.offsets relocatable old (mem_of_section? lookup)
    split
    case isTrue same => exact (kept old (same ▸ lookup)).trans before
    case isFalse => exact before

/-- Whatever a statement does, a module stays formed. -/
def formation : Trait where
  ofModule := Formed
  ofValue := Value.Proper
  values := Value.closed_proper
  symbol key _ formed := formed.symbols key
  address kind id n _ _ := (Value.wellFormed_address kind id n _).proper_of_internal rfl
  literal proper := proper.of_same
    (proper.toWellFormed.of_same rfl proper.units rfl rfl rfl rfl fun _ => rfl) rfl rfl
  mention key _ formed := formed.of_sections (formed.symbols.mention key) rfl id
  define formed proper made :=
    formed.of_sections (formed.symbols.define Value.lasting_proper proper made) rfl id
  declareEntry key module formed := formed.of_sections
    (SymbolTable.Each.markEntry Value.lasting_proper formed.symbols key) (addEntry_sections module key)
    fun absolute => (addEntry_absolute module key).trans absolute
  declareExternal {module key _} formed made := formed.of_sections
    (SymbolTable.Each.makeExternal Value.lasting_proper formed.symbols made)
    (addExternal_sections module key) fun absolute => (addExternal_absolute module key).trans absolute
  addSection name type residency module formed _ :=
    ⟨formed.symbols, fun relocatable sec member => by
      rcases List.mem_append.mp member with old | new
      · exact formed.offsets relocatable sec old
      · rw [List.mem_singleton.mp new]
        rfl⟩
  place formed kept := formed.modifySection fun sec found => (kept sec found).originOffset
  relocate _ _ _ _ formed _ _ := formed.modifySection fun _ _ => rfl
  describe formed symbols sections _ absolute :=
    formed.of_sections (symbols ▸ formed.symbols) sections absolute

/-- Sections are displaced in absolute modules only. -/
theorem Formed.preparePassTwo (formed : module.Formed) : module.preparePassTwo.Formed where
  symbols := SymbolTable.Each.adjust Value.lasting_proper formed.symbols _
  offsets relocatable sec member := by
    have same : module.absolute = false := relocatable
    obtain ⟨old, among, rfl⟩ := List.mem_map.mp member
    rw [if_neg (by rw [same]; exact Bool.false_ne_true)] at among
    exact formed.offsets same old among

end Module

/-- The current module is formed, and it has the current section. -/
structure Context.Formed (context : Context) : Prop where
  seated : Asm.Seated context
  module : context.currentModule.Formed

namespace Asm

/-- Contexts in which an assembly has a statement to assemble. What a statement notes of itself before
it is carried out, and what is passed over, is put in at will. -/
inductive Occurs : Context → Prop
  | start (settings : Settings) (clock : Clock) (name : String) :
      Occurs ((Context.initial settings clock name).startPass .one)
  | amid {context : Context} (statement : StatementState) (skip : Option Skip) : Occurs context →
      Occurs { context with statement, skip }
  | statement {context : Context} (number : LineNumber) (text : String)
      (origin : Option FrameKind) (truncated mayNest : Bool) : Occurs context →
      Occurs ((assembleStatement number text origin truncated mayNest).run context).2
  | passTwo {context : Context} (line : LineNumber) : Occurs context → context.pass = .one →
      Occurs ((betweenPasses ((finishPass line).run context).2).startPass .two)

variable {context : Context}

theorem Occurs.reached (occurs : Occurs context) : Reached context := by
  induction occurs with
  | start settings clock name => exact .start settings clock name
  | @amid context statement skip _ ih =>
    exact ih.step (.aside statement context.qualifier context.base context.list context.format skip
      context.capture context.inInstruction context.tally context.listing context.reports)
  | statement number text origin truncated mayNest _ ih =>
    exact ih.statement number text origin truncated mayNest
  | passTwo line _ first ih => exact ih.passTwo line first

/-- A trait of new modules that survives the end of pass 1 is one of all modules. -/
theorem Occurs.everywhere_of {trait : Trait} (fresh : ∀ name, trait.ofModule (.make name))
    (prepared : ∀ {module}, trait.ofModule module → trait.ofModule module.preparePassTwo)
    (occurs : Occurs context) : Everywhere trait context := by
  induction occurs with
  | start settings clock name =>
    intro index known
    obtain rfl : index = 0 := Nat.lt_one_iff.mp known
    exact fresh name
  | amid statement skip _ ih => exact ih.aside rfl
  | statement number text origin truncated mayNest _ ih =>
    exact (everywhere_assembleStatement fresh number text origin truncated mayNest _ ih).1
  | passTwo line _ _ ih =>
    have ended := (everywhere_finishPass fresh line _ ih).1
    exact (ended.betweenPasses prepared).aside rfl

theorem Occurs.everywhere (occurs : Occurs context) : Everywhere Module.formation context :=
  occurs.everywhere_of Module.formed_make fun formed => formed.preparePassTwo

/-- Wherever a statement is assembled, the current module is formed. -/
theorem Occurs.formed (occurs : Occurs context) : context.Formed where
  seated := ⟨occurs.reached.sound.current_lt, occurs.reached.sound.sections_lt _ List.mem_cons_self⟩
  module := occurs.everywhere context.moduleIndex occurs.reached.sound.current_lt

theorem occurs_lines (lines : List SourceLine) : Keeps Occurs (lines.forM assembleSourceLine) :=
  Keeps.forM fun line _ => (Regard.keeping Occurs).sourceLine (fun number text origin truncated mayNest _ occurs =>
    ⟨occurs.statement number text origin truncated mayNest, trivial⟩) line

/-- Every line of pass 1 is assembled where the lines above it lead. -/
theorem occurs_passOneAfter (lines : List SourceLine) (name : String) (settings : Settings)
    (clock : Clock) : Occurs (Assembly.passOneAfter lines name settings clock) :=
  (occurs_lines lines _ (.start settings clock name)).1

/-- And every line of pass 2 is. -/
theorem occurs_passTwoAfter (lines : List SourceLine) (name : String) (settings : Settings)
    (clock : Clock) (count : Nat) : Occurs (Assembly.passTwoAfter lines name settings clock count) := by
  have first : (Assembly.passOneAfter lines name settings clock).pass = .one :=
    Assembly.pass_of_leads lines name settings clock .refl
  have ended : Assembly.passOneEnd lines name settings clock =
      ((finishPass ((lines.getLast?.map (·.number + 1)).getD 1)).run
        (Assembly.passOneAfter lines name settings clock)).2 := rfl
  have begun : Occurs (Assembly.passTwoStart lines name settings clock) := by
    unfold Assembly.passTwoStart
    rw [ended]
    exact (occurs_passOneAfter lines name settings clock).passTwo _ first
  exact (occurs_lines (lines.take count) _ begun).1

end Asm

end CrayAssembler
