import CrayAssembler.Proofs.Likeness.Basic
import CrayAssembler.Proofs.Source.Comments

namespace CrayAssembler

namespace Capture

/-- What is being collected, without comments. -/
def plain : Capture → Capture
  | .prototype => .prototype
  | .definition parts body => .definition parts (plainLines body)
  | .group name count statements body => .group name count statements (plainLines body)

/-- More lines are to come, and the parameters of a macro have proper names. -/
def Pending : Capture → Prop
  | .prototype => True
  | .definition parts _ => parts.Proper
  | .group _ _ none _ => True
  | .group _ _ (some statements) body => (plainLines body).length < statements

theorem pending_plain (capture : Capture) : capture.plain.Pending ↔ capture.Pending := by
  cases capture with
  | prototype => exact .rfl
  | definition parts body => exact .rfl
  | group name count statements body =>
    cases statements with
    | none => exact .rfl
    | some statements =>
      simp only [plain, Pending, plainLines_plainLines]

end Capture

/-- The lines that a statement gives, without comments. Where nothing is left, none are given. -/
def FrameChange.plain : FrameChange → FrameChange
  | .push frame =>
    if plainLines frame.lines = [] then .keep else .push ⟨frame.kind, 0, plainLines frame.lines⟩
  | .keep => .keep
  | .clear => .clear

/-- What is known of a statement, without comments and the number of its line. -/
def StatementState.plain (statement : StatementState) : StatementState :=
  { statement with line := 0, frameChange := statement.frameChange.plain }

/-- A report without the number of its line. -/
def Report.plain (report : Report) : Report :=
  { report with line := 0 }

namespace Context

/-- A context without comments, macros, numbers of lines and the listing. What is to be seen of the
counts is given. -/
def plain (view : Tally → Tally) (context : Context) : Context :=
  { context with
    modules := context.modules.map Module.bare
    capture := context.capture.map Capture.plain
    statement := context.statement.plain
    tally := view context.tally
    listing := #[]
    reports := context.reports.map Report.plain }

/-- A macro of the module with the given place, without comments. -/
def macroAt (context : Context) (index : Nat) (name : String) : Option MacroDefinition :=
  ((context.moduleAt index).macros[name]?).map MacroDefinition.plain

variable {view : Tally → Tally} (context : Context)

theorem findMicro?_plain (name : String) :
    (context.plain view).findMicro? name = context.findMicro? name :=
  context.findMicro?_sight name

theorem findSynonym?_plain (name : String) :
    (context.plain view).findSynonym? name = context.findSynonym? name :=
  context.findSynonym?_sight name

/-- A change of the current module as it is seen without macros. -/
theorem plain_modifyModule {change image : Module → Module}
    (bare : ∀ module : Module, (change module).bare = image module.bare) :
    (context.modifyModule change).plain view = (context.plain view).modifyModule image := by
  have modules : (context.modules.modify context.moduleIndex change).map Module.bare =
      (context.modules.map Module.bare).modify context.moduleIndex image := by
    refine List.ext_getElem? fun index => ?_
    rw [List.getElem?_map, List.getElem?_modify, List.getElem?_modify, List.getElem?_map]
    cases context.modules[index]? with
    | none => rfl
    | some module =>
      simp only [Option.map_eq_map, Option.map_some]
      split
      · exact congrArg some (bare module)
      · rfl
  unfold modifyModule plain
  dsimp only
  rw [modules]

theorem macroAt_modifyModule {change : Module → Module}
    (kept : (change context.currentModule).macros = context.currentModule.macros) (index : Nat)
    (name : String) :
    (context.modifyModule change).macroAt index name = context.macroAt index name := by
  unfold macroAt
  rw [related_modifyModule (R := fun before after => after.macros = before.macros)
    (fun _ => rfl) kept]

/-- A macro as it can be called, without comments, is one of the current or of the anonymous
module. -/
theorem findMacro?_plain (name : String) :
    (context.findMacro? name).map MacroDefinition.plain =
      ([context.macroAt context.moduleIndex name, context.macroAt anonymousModule name].filterMap
        id).find? fun definition => definition.pass = context.pass := by
  have plain (found : List MacroDefinition) : (found.map MacroDefinition.plain).find?
      (fun definition => definition.pass = context.pass) =
        (found.find? fun definition => definition.pass = context.pass).map MacroDefinition.plain :=
    List.find?_map
  have found : [context.macroAt context.moduleIndex name, context.macroAt anonymousModule name] =
      context.searched.map fun module => (module.macros[name]?).map MacroDefinition.plain := rfl
  rw [findMacro?, ← plain, List.map_filterMap, found, List.filterMap_map]
  rfl

end Context

/-- The contexts are the same up to comments and the numbers of lines, as far as the counts of
diagnostics are to be seen. -/
structure Akin (view : Tally → Tally) (here there : Context) : Prop where
  plain : here.plain view = there.plain view
  macros : ∀ index name, here.macroAt index name = there.macroAt index name
  pending : ∀ capture ∈ here.capture, capture.Pending

namespace Akin

variable {view : Tally → Tally} {here there further : Context}

theorem capture (akin : Akin view here there) :
    here.capture.map Capture.plain = there.capture.map Capture.plain :=
  congrArg Context.capture akin.plain

theorem symm (akin : Akin view here there) : Akin view there here where
  plain := akin.plain.symm
  macros index name := (akin.macros index name).symm
  pending capture collecting := by
    have same := akin.capture
    rw [collecting] at same
    cases found : here.capture with
    | none =>
      rw [found] at same
      nomatch same
    | some other =>
      rw [found] at same
      have pending := (Capture.pending_plain other).mpr (akin.pending other found)
      rw [Option.some.inj same] at pending
      exact (Capture.pending_plain capture).mp pending

theorem trans (first : Akin view here there) (second : Akin view there further) :
    Akin view here further where
  plain := first.plain.trans second.plain
  macros index name := (first.macros index name).trans (second.macros index name)
  pending := first.pending

/-- Whatever is seen of a context without comments is the same. -/
theorem view_eq {α : Type} (akin : Akin view here there) (seen : Context → α)
    (same : ∀ context : Context, seen (context.plain view) = seen context) :
    seen here = seen there := by
  rw [← same here, akin.plain, same there]

/-- Both contexts are changed alike, outside of their modules and of what is collected. -/
theorem aside (akin : Akin view here there) {change : Context → Context}
    (image : Context → Context)
    (commutes : ∀ context : Context, (change context).plain view = image (context.plain view))
    (modules : ∀ context, (change context).modules = context.modules)
    (captures : ∀ context, (change context).capture = context.capture) :
    Akin view (change here) (change there) where
  plain := by rw [commutes, akin.plain, commutes]
  macros index name := by
    unfold Context.macroAt
    rw [Context.moduleAt_of_modules (modules here), Context.moduleAt_of_modules (modules there)]
    exact akin.macros index name
  pending capture collecting := akin.pending capture ((captures here).symm.trans collecting)

/-- Both current modules are changed alike, and not in their macros. -/
theorem modifyModule (akin : Akin view here there) {change : Module → Module}
    (bare : ∀ module : Module, (change module).bare = change module.bare)
    (kept : ∀ module : Module, (change module).macros = module.macros) :
    Akin view (here.modifyModule change) (there.modifyModule change) where
  plain := by rw [Context.plain_modifyModule here bare, akin.plain, Context.plain_modifyModule there bare]
  macros index name := by
    rw [Context.macroAt_modifyModule here (kept _), Context.macroAt_modifyModule there (kept _)]
    exact akin.macros index name
  pending := akin.pending

theorem findMacro? (akin : Akin view here there) (name : String) :
    (here.findMacro? name).map MacroDefinition.plain =
      (there.findMacro? name).map MacroDefinition.plain := by
  have current := akin.view_eq Context.moduleIndex fun _ => rfl
  have pass := akin.view_eq Context.pass fun _ => rfl
  rw [Context.findMacro?_plain, Context.findMacro?_plain, akin.macros, akin.macros, current, pass]

/-- What is collected from now on. -/
theorem collect (akin : Akin view here there) {next other : Option Capture}
    (same : next.map Capture.plain = other.map Capture.plain)
    (pending : ∀ capture ∈ next, capture.Pending) :
    Akin view { here with capture := next } { there with capture := other } where
  plain := by
    have rest := congrArg (fun context : Context => { context with capture := next.map Capture.plain })
      akin.plain
    refine rest.trans ?_
    rw [same]
    rfl
  macros := akin.macros
  pending := pending

theorem addModule (akin : Akin view here there) (name : String) :
    Akin view { here with modules := here.modules ++ [.make name] }
      { there with modules := there.modules ++ [.make name] } where
  plain := by
    have added (context : Context) :
        { context with modules := context.modules ++ [Module.make name] }.plain view =
          { context.plain view with modules := (context.plain view).modules ++ [Module.make name] } := by
      unfold Context.plain
      rw [List.map_append]
      rfl
    rw [added, added, akin.plain]
  macros index called := by
    have length := akin.view_eq (·.modules.length) fun context => List.length_map ..
    have found := akin.macros index called
    unfold Context.macroAt Context.moduleAt at found ⊢
    rw [List.getD_eq_getElem?_getD, List.getD_eq_getElem?_getD] at found ⊢
    dsimp only
    rw [List.getElem?_append, List.getElem?_append, length]
    split
    · exact found
    · rfl
  pending := akin.pending

end Akin

/-- Directives and machine instructions do not depend on comments. -/
theorem Asm.likeness_akin (view : Tally → Tally) : Likeness (Akin view) where
  sight akin := by
    have seen (context : Context) : context.sight = (context.plain view).sight := by
      unfold Context.sight Context.plain
      dsimp only
      rw [List.map_map]
      rfl
    rw [seen, akin.plain, ← seen]
  callable akin name := by
    have found := congrArg Option.isSome (akin.findMacro? name)
    rwa [Option.isSome_map, Option.isSome_map] at found
  modules bare kept akin := akin.modifyModule bare kept
  opened name akin := akin.addModule name
  besides other akin := @Akin.aside _ _ _ akin (Context.beside · other) (Context.beside · other)
    (fun _ => rfl) (fun _ => rfl) fun _ => rfl
  statements {here there change} apart akin := by
    have commutes (statement : StatementState) :
        (change statement).plain = change statement.plain := by
      refine Eq.trans ?_ (apart statement 0 statement.frameChange.plain).symm
      unfold StatementState.plain
      rw [frameChange_of_apart apart]
    refine @Akin.aside _ _ _ akin (Context.modifyStatement · change)
      (Context.modifyStatement · change) (fun context => ?_) (fun _ => rfl) fun _ => rfl
    unfold Context.modifyStatement Context.plain
    dsimp only
    rw [commutes]
  cleared akin :=
    let clear (context : Context) :=
      context.modifyStatement fun statement => { statement with frameChange := .clear }
    @Akin.aside _ _ _ akin clear clear (fun _ => rfl) (fun _ => rfl) fun _ => rfl
  captures {here there capture} begun akin := by
    refine akin.collect rfl fun other found => ?_
    obtain ⟨⟩ := found
    match capture, begun with
    | .prototype, _ => trivial
    | .group _ _ none _, _ => trivial
    | .group _ _ (some statements) _, ⟨more, rfl⟩ =>
      exact Nat.pos_of_ne_zero fun none => more (congrArg some none)
  listings listing akin := by
    refine ⟨?_, akin.macros, akin.pending⟩
    exact akin.plain

end CrayAssembler
