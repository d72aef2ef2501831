import CrayAssembler.Assembly.Emit
import CrayAssembler.Proofs.Assembly.Chain
import CrayAssembler.Proofs.Assembly.Glance

namespace CrayAssembler

/-- A section without what is written in it and without how it came to its place. -/
def Section.bare (sec : Section) : Section :=
  { sec with placed := false, block := .empty }

/-- A module without its macros. -/
def Module.bare (module : Module) : Module :=
  { module with macros := ∅ }

namespace Context

/-- What directives and machine instructions see of a context, but for the names of macros. -/
def sight (context : Context) : Context :=
  { context with
    modules := context.modules.map Module.bare
    capture := none
    statement := {}
    tally := {}
    listing := #[]
    reports := #[] }

/-- The contexts agree in what directives ask of a context themselves. Symbols and sections that are
not current are asked for by the actions that they consist of. -/
structure Resembles (here there : Context) : Prop where
  settings : here.settings = there.settings
  sectionId : here.sectionId = there.sectionId
  qualifier : here.qualifier = there.qualifier
  base : here.base = there.base
  list : here.list = there.list
  format : here.format = there.format
  inInstruction : here.inInstruction = there.inInstruction
  absolute : here.currentModule.absolute = there.currentModule.absolute
  current : here.currentSection.bare = there.currentSection.bare
  micro : ∀ name, here.findMicro? name = there.findMicro? name
  synonym : ∀ name, here.findSynonym? name = there.findSynonym? name

namespace Resembles

variable {here there : Context} (alike : here.Resembles there)

include alike

/-- What is asked of the current section is its type or one of its counters. -/
theorem section_eq {α : Type} (asked : Section → α) (same : ∀ sec : Section, asked sec.bare = asked sec) :
    asked here.currentSection = asked there.currentSection := by
  rw [← same, alike.current, same]

theorem type : here.currentSection.type = there.currentSection.type :=
  alike.section_eq _ fun _ => rfl

theorem locationWord : here.currentSection.locationWord = there.currentSection.locationWord :=
  alike.section_eq _ fun _ => rfl

theorem locationParcel : here.currentSection.locationParcel = there.currentSection.locationParcel :=
  alike.section_eq _ fun _ => rfl

theorem baseWord : here.currentSection.baseWord = there.currentSection.baseWord :=
  alike.section_eq _ fun _ => rfl

theorem wordBit : here.currentSection.wordBit = there.currentSection.wordBit :=
  alike.section_eq _ fun _ => rfl

theorem parcelBit : here.currentSection.parcelBit = there.currentSection.parcelBit :=
  alike.section_eq _ fun _ => rfl

theorem relocatable : here.relocatable = there.relocatable := by
  unfold Context.relocatable
  rw [alike.absolute]

end Resembles

variable (context : Context)

theorem moduleAt_sight (index : Nat) :
    context.sight.moduleAt index = (context.moduleAt index).bare := by
  unfold moduleAt sight
  dsimp only
  rw [List.getD_eq_getElem?_getD, List.getD_eq_getElem?_getD, List.getElem?_map]
  cases context.modules[index]? <;> rfl

@[simp] theorem currentModule_sight : context.sight.currentModule = context.currentModule.bare :=
  context.moduleAt_sight context.moduleIndex

@[simp] theorem currentSection_sight : context.sight.currentSection = context.currentSection := by
  unfold currentSection
  rw [currentModule_sight]
  rfl

@[simp] theorem relocatable_sight : context.sight.relocatable = context.relocatable := by
  unfold relocatable
  rw [currentModule_sight]
  rfl

theorem findSome?_searched_sight {α : Type} {found : Module → Option α}
    (same : ∀ module : Module, found module.bare = found module) :
    context.sight.searched.findSome? found = context.searched.findSome? found := by
  have bare : context.sight.searched = context.searched.map Module.bare := by
    unfold searched
    rw [currentModule_sight]
    exact congrArg ([context.currentModule.bare, ·]) (context.moduleAt_sight anonymousModule)
  rw [bare, List.findSome?_map]
  exact congrArg (context.searched.findSome? ·) (funext same)

@[simp] theorem findMicro?_sight (name : String) :
    context.sight.findMicro? name = context.findMicro? name := by
  unfold findMicro?
  rw [findSome?_searched_sight]
  · rfl
  · exact fun _ => rfl

@[simp] theorem findSynonym?_sight (name : String) :
    context.sight.findSynonym? name = context.findSynonym? name :=
  context.findSome?_searched_sight fun _ => rfl

@[simp] theorem resolve_sight (name : String) :
    Asm.resolve context.sight name = Asm.resolve context name := by
  unfold Asm.resolve
  rw [currentModule_sight]
  rfl

end Context

namespace Asm

section Together

variable {M : Context → Context → Prop} {α : Type} {next : Context → AsmM α} {Q : α → Prop}

/-- What follows is the same for contexts that are related. -/
theorem Together.bindSame (same : ∀ here there, M here there → next here = next there)
    (each : ∀ context, Together M (next context)) : Together M (get >>= next) := by
  intro here there alike
  have rest := each here here there alike
  unfold Meets
  change _ = ((next there).run there).1 ∧ M _ ((next there).run there).2
  rw [← same here there alike]
  exact rest

/-- The result may be asked for as well. -/
theorem Together.asking (same : ∀ here there, M here there → next here = next there)
    (each : ∀ context, Together M (next context) ∧
      ∀ {here there}, M here there → Q ((next context).run here).1) :
    Together M (get >>= next) ∧ ∀ {here there}, M here there → Q ((get >>= next).run here).1 :=
  ⟨.bindSame same fun context => (each context).1, fun {here _} related => (each here).2 related⟩

end Together

/-- A way to regard actions: what is shown of an action, together with a property of its result, is
shown of its parts one after another. What follows a context that is read must be the same for contexts
that resemble each other. -/
structure Regard where
  Gives : {α : Type} → AsmM α → (α → Prop) → Prop
  result : ∀ {α : Type} {value : α} {Q : α → Prop}, Q value → Gives (pure value) Q
  sequence : ∀ {α β : Type} {action : AsmM α} {next : α → AsmM β} {Q : α → Prop} {R : β → Prop},
    Gives action Q → (∀ value, Q value → Gives (next value) R) → Gives (action >>= next) R
  ask : ∀ {α : Type} {next : Context → AsmM α} {Q : α → Prop},
    (∀ {here there}, Context.Resembles here there → next here = next there) →
    (∀ context, Gives (next context) Q) → Gives (get >>= next) Q

namespace Regard

variable {regard : Regard} {α β : Type} {Q : α → Prop} {R : β → Prop}

def Keeps (regard : Regard) {α : Type} (action : AsmM α) : Prop :=
  regard.Gives action fun _ => True

theorem Gives.pure {value : α} (known : Q value) : regard.Gives (pure value) Q :=
  regard.result known

theorem Gives.bind {action : AsmM α} {next : α → AsmM β} (first : regard.Gives action Q)
    (second : ∀ value, Q value → regard.Gives (next value) R) : regard.Gives (action >>= next) R :=
  regard.sequence first second

theorem Gives.bindGet {next : Context → AsmM β}
    (same : ∀ {here there}, Context.Resembles here there → next here = next there)
    (each : ∀ context, regard.Gives (next context) R) : regard.Gives (get >>= next) R :=
  regard.ask same each

theorem Gives.mono {action : AsmM α} {Q' : α → Prop} (gives : regard.Gives action Q)
    (weaker : ∀ value, Q value → Q' value) : regard.Gives action Q' := by
  rw [← bind_pure action]
  exact gives.bind fun value known => .pure (weaker value known)

theorem Gives.keeps {action : AsmM α} (gives : regard.Gives action Q) : regard.Keeps action :=
  gives.mono fun _ _ => trivial

theorem Keeps.pure (value : α) : regard.Keeps (pure value) :=
  Gives.pure trivial

theorem Keeps.bind {action : AsmM α} {next : α → AsmM β} (first : regard.Keeps action)
    (second : ∀ value, regard.Gives (next value) R) : regard.Gives (action >>= next) R :=
  Gives.bind first fun value _ => second value

/-- Something may be complained of first. -/
theorem Gives.complain {condition : Prop} [Decidable condition] {complaint : AsmM Unit}
    {rest : AsmM β} (first : regard.Keeps complaint) (second : regard.Gives rest R) :
    regard.Gives (if condition then complaint >>= fun _ => rest else rest) R := by
  split
  · exact first.bind fun _ => second
  · exact second

theorem Keeps.forM {items : List α} {action : α → AsmM PUnit}
    (each : ∀ item ∈ items, regard.Keeps (action item)) : regard.Keeps (items.forM action) := by
  induction items with
  | nil => exact .pure _
  | cons item items ih =>
    refine (each item List.mem_cons_self).bind fun _ => ?_
    exact ih fun other member => each other (List.mem_cons_of_mem _ member)

theorem Keeps.repeatTimes {action : AsmM Unit} (each : regard.Keeps action) (n : Nat) :
    regard.Keeps (repeatTimes action n) := by
  induction n with
  | zero => exact .pure _
  | succ n ih => exact each.bind fun _ => ih

/-- An action keeps an invariant. -/
abbrev keeping (I : Context → Prop) : Regard where
  Gives action Q := Asm.Gives I action Q
  result := Asm.Gives.pure
  sequence := Asm.Gives.bind
  ask _ each := Asm.Gives.bindGet fun context _ => each context

/-- An action does the same in related contexts and leads to related contexts. -/
abbrev together (M : Context → Context → Prop)
    (alike : ∀ {here there}, M here there → here.Resembles there) : Regard where
  Gives action Q := Together M action ∧ ∀ {here there}, M here there → Q (action.run here).1
  result known := ⟨.pure _, fun _ => known⟩
  sequence {_ _ action next _ _} first second := by
    have rest {here there : Context} (related : M here there) :=
      second (action.run here).1 (first.2 related)
    refine ⟨fun here there related => ?_, fun {here there} related => ?_⟩
    · obtain ⟨same, later⟩ := first.1 here there related
      have after := (rest related).1 _ _ later
      change _ = ((next (action.run there).1).run _).1 ∧ M _ ((next (action.run there).1).run _).2
      rw [← same]
      exact after
    · exact (rest related).2 (first.1 here there related).2
  ask same each := Together.asking (fun _ _ related => same (alike related)) each

end Regard

theorem Together.keeps {M : Context → Context → Prop}
    {alike : ∀ {here there}, M here there → here.Resembles there} {α : Type} {action : AsmM α}
    (together : Together M action) : (Regard.together M alike).Keeps action :=
  ⟨together, fun _ => trivial⟩

end Asm

end CrayAssembler
