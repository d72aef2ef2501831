import CrayAssembler.Proofs.Assembly.Agreement
import CrayAssembler.Proofs.Assembly.Flushing
import CrayAssembler.Proofs.Symbol.Externals

namespace CrayAssembler

@[simp]
theorem Context.moduleAt_startPass (context : Context) (pass : Pass) (index : Nat) :
    (context.startPass pass).moduleAt index = context.moduleAt index := rfl

@[simp]
theorem Context.valueAt_startPass (context : Context) (pass : Pass) (index : Nat)
    (key : SymbolKey) : (context.startPass pass).valueAt index key = context.valueAt index key :=
  rfl

namespace Asm

variable {start context after later : Context}

/-- The contexts that an assembly may come to from a context on. -/
inductive Proceeds (start : Context) : Context → Prop
  | refl : Proceeds start start
  | step {context after : Context} : Proceeds start context → Step context after →
      Proceeds start after
  | passTwo {context : Context} (line : LineNumber) : Proceeds start context →
      context.pass = .one →
      Proceeds start ((betweenPasses ((closeAnonymousModule line).run context).2).startPass .two)

/-- Some assembly comes to the context. -/
def Arises (context : Context) : Prop :=
  ∃ settings clock name, Proceeds ((Context.initial settings clock name).startPass .one) context

/-- A definition gave a symbol of the module with the given place a value that refers to an external,
which has a place in the list already. -/
def Granted (later : Context) (index : Nat) (key : SymbolKey) (place : Nat) : Prop :=
  ∃ before value redefinable symbols, Arises before ∧ before.moduleIndex = index ∧
    value.isExternal ∧ value.external = some place ∧
    place < before.currentModule.externals.length ∧
    before.currentModule.symbols.define key value redefinable before.pass = .ok symbols ∧
    Proceeds (before.modifyModule fun module => { module with symbols }) later

theorem Proceeds.steps (proceeds : Proceeds start context) (steps : Steps context after) :
    Proceeds start after := by
  induction steps with
  | refl => exact proceeds
  | tail _ step ih => exact ih.step step

theorem Granted.mono {index place : Nat} {key : SymbolKey} (granted : Granted context index key place)
    (further : ∀ {start}, Proceeds start context → Proceeds start after) :
    Granted after index key place := by
  obtain ⟨before, value, redefinable, symbols, arises, current, isExternal, external, known, made,
    proceeds⟩ := granted
  exact ⟨before, value, redefinable, symbols, arises, current, isExternal, external, known, made,
    further proceeds⟩

theorem steps_assembleStatement (sound : context.Sound) (number : LineNumber) (text : String)
    (origin : Option FrameKind) (truncated mayNest : Bool) :
    Steps context ((assembleStatement number text origin truncated mayNest).run context).2 :=
  (follows_assembleStatement number text origin truncated mayNest _
    (⟨sound, .refl⟩ : Follows _ _)).1.steps

/-- The end of a pass closes the anonymous module after some last steps. -/
theorem finishPass_eq (sound : context.Sound) (line : LineNumber) :
    ∃ last, Steps context last ∧
      ((finishPass line).run context).2 = ((closeAnonymousModule line).run last).2 := by
  have closing : Takes (Follows context) (closeAnonymousModule line) fun final =>
      ∃ last, Steps context last ∧ final = ((closeAnonymousModule line).run last).2 :=
    fun last follows => ⟨last, follows.steps, rfl⟩
  exact takes_finishPass line closing context ⟨sound, .refl⟩

theorem Proceeds.finishPass (proceeds : Proceeds start context) (sound : context.Sound)
    (first : context.pass = .one) (line : LineNumber) :
    Proceeds start ((betweenPasses ((finishPass line).run context).2).startPass .two) := by
  obtain ⟨last, steps, closed⟩ := finishPass_eq sound line
  rw [closed]
  exact (proceeds.steps steps).passTwo line (steps.pass.trans first)

theorem Reached.arises (reached : Reached context) : Arises context := by
  induction reached with
  | start settings clock name => exact ⟨settings, clock, name, .refl⟩
  | step _ step ih =>
    obtain ⟨settings, clock, name, proceeds⟩ := ih
    exact ⟨settings, clock, name, proceeds.step step⟩
  | statement number text origin truncated mayNest reached ih =>
    obtain ⟨settings, clock, name, proceeds⟩ := ih
    exact ⟨settings, clock, name, proceeds.steps
      (steps_assembleStatement reached.sound number text origin truncated mayNest)⟩
  | passTwo line reached first ih =>
    obtain ⟨settings, clock, name, proceeds⟩ := ih
    exact ⟨settings, clock, name, proceeds.finishPass reached.sound first line⟩

theorem Arises.proceeds (arises : Arises context) (proceeds : Proceeds context later) :
    Arises later := by
  obtain ⟨settings, clock, name, before⟩ := arises
  refine ⟨settings, clock, name, ?_⟩
  induction proceeds with
  | refl => exact before
  | step _ step ih => exact ih.step step
  | passTwo line _ first ih => exact ih.passTwo line first

/-- Closing the anonymous module changes no symbol and no list of externals. -/
theorem closeAnonymousModule_kept (context : Context) (line : LineNumber) (index : Nat) :
    (((closeAnonymousModule line).run context).2.moduleAt index).symbols =
        (context.moduleAt index).symbols ∧
      (((closeAnonymousModule line).run context).2.moduleAt index).externals =
        (context.moduleAt index).externals := by
  rw [Context.moduleAt_of_modules (closeAnonymousModule_eq context line).1, Context.moduleAt_closed,
    Context.sealed, Context.moduleAt_modifyModule]
  split
  case isTrue both =>
    obtain ⟨rfl, -⟩ := both
    exact ⟨rfl, rfl⟩
  case isFalse => exact ⟨rfl, rfl⟩

section Linking

variable {granted : SymbolKey → Nat → Prop} {index : Nat}

theorem linked_modifyModule {change : Module → Module}
    (linked : (context.moduleAt index).Linked granted)
    (kept : context.moduleIndex = index → context.currentModule.Linked granted →
      (change context.currentModule).Linked granted) :
    ((context.modifyModule change).moduleAt index).Linked granted := by
  rw [Context.moduleAt_modifyModule]
  split
  case isTrue both =>
    obtain ⟨rfl, -⟩ := both
    exact kept rfl linked
  case isFalse => exact linked

theorem linked_append (name : String) (linked : (context.moduleAt index).Linked granted) :
    (Context.moduleAt { context with modules := context.modules ++ [.make name] } index).Linked
      granted := by
  unfold Context.moduleAt at linked ⊢
  rw [List.getD_eq_getElem?_getD] at linked ⊢
  by_cases known : index < context.modules.length
  · exact (List.getElem?_append_left known).symm ▸ linked
  · dsimp only
    rw [List.getElem?_append_right (Nat.not_lt.mp known)]
    cases index - context.modules.length <;> exact Module.linked_empty rfl rfl

/-- A step leaves the externals and the places of symbols fitting together, if it grants what it
gives by a definition. -/
theorem Step.linked (step : Step context after)
    (grant : ∀ key value redefinable symbols, context.moduleIndex = index →
      context.currentModule.symbols.define key value redefinable context.pass = .ok symbols →
      after = (context.modifyModule fun module => { module with symbols }) →
      ∀ place, place < context.currentModule.externals.length → value.isExternal →
        value.external = some place → granted key place)
    (linked : (context.moduleAt index).Linked granted) :
    (after.moduleAt index).Linked granted := by
  have sections (change : Section → Section) :
      ((context.modifySection change).moduleAt index).Linked granted :=
    linked_modifyModule linked fun _ linked => linked.of_same rfl rfl
  cases step with
  | aside | selectSection | enter | leave | produce => exact linked
  | describe change kept =>
    obtain ⟨-, -, symbols, -, externals⟩ := kept context.currentModule
    exact linked_modifyModule linked fun _ linked => linked.of_same symbols externals
  | mention key =>
    refine linked_modifyModule linked fun _ linked => linked.of_alike rfl fun other => ?_
    rw [SymbolTable.value_mention]
    exact ⟨rfl, rfl⟩
  | define key value redefinable symbols refers made =>
    refine linked_modifyModule linked fun current linked => linked.define made refers ?_
    intro place isExternal external
    exact grant key value redefinable symbols current made rfl place
      (refers.external_lt place external) isExternal external
  | declareEntry key =>
    refine linked_modifyModule linked fun _ linked =>
      linked.of_alike (Module.addEntry_externals _ _) fun other => ?_
    obtain ⟨entry, result⟩ := SymbolTable.value_markEntry context.currentModule.symbols key other
    rw [result]
    exact ⟨rfl, rfl⟩
  | declareExternal key symbols made =>
    exact linked_modifyModule linked fun _ linked => linked.declareExternal made
  | intern | addSection | placeLiterals =>
    exact linked_modifyModule linked fun _ linked => linked.of_same rfl rfl
  | emit width bits =>
    obtain ⟨change, emitted⟩ := emitBits_modifies context width bits
    rw [Context.moduleAt_of_modules emitted index]
    exact sections change
  | emitReference kind fieldLength value parcel width bits =>
    obtain ⟨change, emitted⟩ :=
      emitReference_modifies context kind fieldLength value parcel width bits
    rw [Context.moduleAt_of_modules emitted index]
    exact sections change
  | reserve | setLocation | setOrigin => exact sections _
  | addModule name => exact linked_append name linked

theorem linked_passTwo (line : LineNumber) (linked : (context.moduleAt index).Linked granted) :
    (((betweenPasses ((closeAnonymousModule line).run context).2).startPass .two).moduleAt
      index).Linked granted := by
  rw [Context.moduleAt_startPass]
  obtain ⟨symbols, externals⟩ := closeAnonymousModule_kept context line index
  have closed := linked.of_same symbols externals
  rw [moduleAt_betweenPasses]
  split
  case isTrue =>
    refine Module.Linked.preparePassTwo ?_
    split
    · exact closed.declareImplicitExternals
    · exact closed
  case isFalse => exact Module.linked_empty rfl rfl

end Linking

/-- In every context of an assembly the externals of a module and the places of its symbols fit
together. -/
theorem Arises.linked (arises : Arises context) (index : Nat) :
    (context.moduleAt index).Linked (Granted context index) := by
  obtain ⟨settings, clock, name, proceeds⟩ := arises
  induction proceeds with
  | refl => cases index <;> exact Module.linked_empty rfl rfl
  | @step context after before step ih =>
    refine step.linked ?_ (ih.mono fun key place granted => granted.mono (·.step step))
    rintro key value redefinable symbols current made rfl place known isExternal external
    exact ⟨context, value, redefinable, symbols, ⟨settings, clock, name, before⟩, current,
      isExternal, external, known, made, .refl⟩
  | passTwo line _ first ih =>
    exact linked_passTwo line (ih.mono fun key place granted =>
      granted.mono (·.passTwo line first))

/-- A symbol that is external keeps its place between the passes. -/
theorem alike_betweenPasses {index : Nat} {key : SymbolKey}
    (external : (context.valueAt index key).isExternal) :
    ((betweenPasses context).valueAt index key).Alike (context.valueAt index key) := by
  change (((betweenPasses context).moduleAt index).symbols.value key).Alike
    ((context.moduleAt index).symbols.value key)
  rw [moduleAt_betweenPasses]
  split
  case isTrue =>
    rw [Module.value_preparePassTwo]
    have moved := SymbolTable.alike_displace
    split
    case isTrue =>
      have declared := Module.alike_declareImplicitExternals external
      exact ⟨(moved _ _).isExternal.trans declared.isExternal,
        (moved _ _).external.trans declared.external⟩
    case isFalse => exact moved _ _
  case isFalse beyond =>
    rw [Context.moduleAt_of_le (Nat.not_lt.mp beyond)]
    exact ⟨rfl, rfl⟩

/-- A symbol that is external keeps its place from then on. -/
theorem Proceeds.alike (proceeds : Proceeds context later) {index : Nat} {key : SymbolKey}
    (external : (context.valueAt index key).isExternal) :
    (later.valueAt index key).Alike (context.valueAt index key) := by
  induction proceeds with
  | refl => exact ⟨rfl, rfl⟩
  | step _ step ih =>
    have kept := (step.change index).alike (ih.isExternal.trans external)
    exact ⟨kept.isExternal.trans ih.isExternal, kept.external.trans ih.external⟩
  | @passTwo middle line _ _ ih =>
    have closed : ((closeAnonymousModule line).run middle).2.valueAt index key =
        middle.valueAt index key :=
      congrArg (·.value key) (closeAnonymousModule_kept middle line index).1
    rw [Context.valueAt_startPass]
    have before : (((closeAnonymousModule line).run middle).2.valueAt index key).isExternal := by
      rw [closed]
      exact ih.isExternal.trans external
    have kept := alike_betweenPasses before
    rw [closed] at kept
    exact ⟨kept.isExternal.trans ih.isExternal, kept.external.trans ih.external⟩

/-- The externals of all modules in whatever context an assembly comes to after another one. No list
names a symbol twice, and all symbols that it names are external. A symbol whose value refers to an
external is the one at the place that it refers to, unless a definition gave it the value of the
symbol there. A place, once had, is kept, and the symbol stays external. This holds after every
statement, in pass 2 as in pass 1, and at the end of each pass. -/
theorem Reached.externals (reached : Reached context) (proceeds : Proceeds context later) :
    (∀ index,
      (later.moduleAt index).externals.Nodup ∧
      (∀ key ∈ (later.moduleAt index).externals, (later.valueAt index key).isExternal) ∧
      (∀ key place, (later.valueAt index key).isExternal →
        (later.valueAt index key).external = some place →
        (later.moduleAt index).externals[place]? = some key ∨
          Granted later index key place ∧
            ∃ other, (later.moduleAt index).externals[place]? = some other ∧
              (later.valueAt index other).isExternal) ∧
      ∀ key place, (context.valueAt index key).isExternal →
        (context.valueAt index key).external = some place →
        (later.valueAt index key).isExternal ∧
          (later.valueAt index key).external = some place) ∧
    (∀ number text origin truncated mayNest, Proceeds context
      ((assembleStatement number text origin truncated mayNest).run context).2) ∧
    (∀ line, context.pass = .one → Proceeds context
      ((betweenPasses ((finishPass line).run context).2).startPass .two)) ∧
    ∀ line, ∃ last, Proceeds context last ∧ ∀ index,
      (((finishPass line).run context).2.moduleAt index).symbols = (last.moduleAt index).symbols ∧
      (((finishPass line).run context).2.moduleAt index).externals =
        (last.moduleAt index).externals := by
  have sound := reached.sound
  refine ⟨fun index => ?_, fun number text origin truncated mayNest => ?_, fun line first => ?_,
    fun line => ?_⟩
  · have linked := (reached.arises.proceeds proceeds).linked index
    refine ⟨linked.nodup, linked.external, fun key place isExternal external => ?_,
      fun key place isExternal external => ?_⟩
    · refine (linked.placed key place isExternal external).imp_right (.imp_right fun known => ?_)
      have found := List.getElem?_eq_getElem known
      exact ⟨_, found, linked.external _ (List.mem_of_getElem? found)⟩
    · have alike := proceeds.alike isExternal
      exact ⟨alike.isExternal.trans isExternal, alike.external.trans external⟩
  · exact Proceeds.refl.steps
      (steps_assembleStatement sound number text origin truncated mayNest)
  · exact Proceeds.refl.finishPass sound first line
  · obtain ⟨last, steps, closed⟩ := finishPass_eq sound line
    refine ⟨last, Proceeds.refl.steps steps, fun index => ?_⟩
    rw [closed]
    exact closeAnonymousModule_kept last line index

/-- A symbol that was declared external is then used. -/
theorem Reached.externals_declared :
    let start := (Context.initial {} ⟨"", "", ""⟩ "MAIN").startPass .one
    let context := ((assembleStatement 1 "         EXT      OUT" none false true).run start).2
    let later := ((assembleStatement 2 "         CON      OUT" none false true).run context).2
    (later.valueAt 0 ⟨"", "OUT"⟩).isExternal ∧
      (later.valueAt 0 ⟨"", "OUT"⟩).external = some 0 := by
  intro start context later
  have reached : Reached context :=
    .statement 1 "         EXT      OUT" none false true (.start {} ⟨"", "", ""⟩ "MAIN")
  have proceeds : Proceeds context later := Proceeds.refl.steps
    (steps_assembleStatement reached.sound 2 "         CON      OUT" none false true)
  exact ((reached.externals proceeds).1 0).2.2.2 ⟨"", "OUT"⟩ 0 (by decide +kernel)
    (by decide +kernel)

end Asm

namespace Assembly

/-- A symbol is equated to one that is declared external further down. -/
def aliasLines : List SourceLine :=
  [⟨1, "         IDENT    M", false⟩, ⟨2, "A        =        OUT", false⟩,
    ⟨3, "         EXT      OUT", false⟩, ⟨4, "         CON      A", false⟩,
    ⟨5, "         END", false⟩]

/-- An assembly without errors may leave two symbols with one place, of which one is not listed. -/
theorem places_shared :
    let context := finalContext aliasLines "MAIN" {} ⟨"", "", ""⟩
    context.tally.errors = 0 ∧
      (context.moduleAt 1).externals = [⟨"", "OUT"⟩] ∧
      (context.valueAt 1 ⟨"", "OUT"⟩).external = some 0 ∧
      (context.valueAt 1 ⟨"", "A"⟩).isExternal ∧
      (context.valueAt 1 ⟨"", "A"⟩).external = some 0 := by
  decide +kernel

end Assembly

end CrayAssembler
