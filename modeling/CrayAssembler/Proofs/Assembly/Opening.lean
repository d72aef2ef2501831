import CrayAssembler.Proofs.Assembly.Occurring
import CrayAssembler.Proofs.Assembly.Sizes

namespace CrayAssembler

namespace SymbolTable

variable {table : SymbolTable} {key : SymbolKey} {new : Value} {name : Name} {current : String}

@[simp] theorem name_resolve (table : SymbolTable) (name : Name) (current : String) :
    (table.resolve name current).name = name.name := by
  unfold resolve
  split
  · rfl
  dsimp only
  split
  · rfl
  split <;> rfl

/-- A symbol that a name cannot mean makes no difference to it. -/
theorem lookup_insert_of_ne (table : SymbolTable) (new : Value)
    (other : name.name ≠ key.name ∨ name.qualifier.getD key.qualifier ≠ key.qualifier) :
    (table.insert key new).lookup name current = table.lookup name current := by
  suffices same : (table.insert key new).resolve name current = table.resolve name current ∧
      key ≠ table.resolve name current by
    unfold lookup
    rw [same.1, value_insert, if_neg same.2]
  cases among : name.qualifier with
  | some qualifier =>
    have resolved (table : SymbolTable) : table.resolve name current = ⟨qualifier, name.name⟩ := by
      unfold resolve
      rw [among]
    rw [resolved, resolved]
    refine ⟨rfl, ?_⟩
    rintro rfl
    rw [among] at other
    rcases other with other | other
    · exact other rfl
    · exact other rfl
  | none =>
    rw [among] at other
    have named : name.name ≠ key.name := other.resolve_right fun apart => apart rfl
    have different (qualifier : String) : key ≠ ⟨qualifier, name.name⟩ := by
      rintro rfl
      exact named rfl
    refine ⟨?_, fun same => named ((name_resolve ..).symm.trans (congrArg (·.name) same.symm))⟩
    unfold resolve
    rw [among]
    simp only [isDefined_eq, value_insert, get?_insert, if_neg (different _)]

/-- A symbol of the current qualifier that is defined is what its name means. -/
theorem lookup_insert_self (table : SymbolTable) (defined : new.isUndefined = false)
    (same : name.qualifier.getD current = current) :
    (table.insert ⟨current, name.name⟩ new).lookup name current = new := by
  have held : (table.insert ⟨current, name.name⟩ new).value ⟨current, name.name⟩ = new :=
    (value_insert ..).trans (if_pos rfl)
  unfold lookup resolve
  cases among : name.qualifier with
  | some qualifier =>
    rw [among] at same
    dsimp only
    rw [show qualifier = current from same, held]
  | none =>
    dsimp only
    rw [if_pos, held]
    rw [isDefined_eq, held, defined]
    exact Bool.or_true _

end SymbolTable

namespace Context

variable {context later : Context}

/-- What no change of modules touches is as before in the current one. -/
theorem currentModule_congr {α : Type} (view : Module → α) {change : Module → Module}
    (same : ∀ module, view (change module) = view module) (context : Context) :
    view (context.modifyModule change).currentModule = view context.currentModule := by
  by_cases current : context.moduleIndex < context.modules.length
  · rw [currentModule_modifyModule current, same]
  · unfold modifyModule currentModule
    rw [List.modify_eq_self (Nat.not_lt.mp current)]

theorem currentModule_congr_section {α : Type} {view : Module → α}
    (same : ∀ (module : Module) id change, view (module.modifySection id change) = view module)
    (context : Context) (change : Section → Section) :
    view (context.modifySection change).currentModule = view context.currentModule :=
  currentModule_congr view (fun module => same module context.sectionId.current change) context

/-- The same counters in the same section give the same values. -/
theorem counterValue_congr (current : later.sectionId.current = context.sectionId.current)
    (location : later.currentSection.locationBits = context.currentSection.locationBits)
    (origin : later.currentSection.originBits = context.currentSection.originBits)
    (absolute : later.currentModule.absolute = context.currentModule.absolute) (place : Counter) :
    later.counterValue place = context.counterValue place := by
  unfold counterValue Asm.counter relocatable Section.locationWord Section.locationParcel
    Section.originWord Section.wordBit Section.parcelBit
  simp only [StateT.run_bind, StateT.run_get, pure_bind, current, location, origin, absolute]
  cases place <;> rfl

end Context

namespace Asm

section Opening

/-- Only the counters, the symbols and the statement itself are others. -/
structure Beside (context later : Context) : Prop where
  base : later.base = context.base
  qualifier : later.qualifier = context.qualifier
  sectionId : later.sectionId = context.sectionId
  absolute : later.currentModule.absolute = context.currentModule.absolute

variable {context middle later : Context}

theorem Beside.refl (context : Context) : Beside context context :=
  ⟨rfl, rfl, rfl, rfl⟩

theorem Beside.trans (first : Beside context middle) (second : Beside middle later) :
    Beside context later :=
  ⟨second.base.trans first.base, second.qualifier.trans first.qualifier,
    second.sectionId.trans first.sectionId, second.absolute.trans first.absolute⟩

theorem Beside.modifyModule (beside : Beside context later) {change : Module → Module}
    (same : ∀ module, (change module).absolute = module.absolute) :
    Beside context (later.modifyModule change) :=
  beside.trans ⟨rfl, rfl, rfl, Context.currentModule_congr (·.absolute) same later⟩

theorem beside_forceParcelBoundary (context : Context) :
    Beside context (forceParcelBoundary.run context).2 := by
  have keeps : Keeps (Beside context) forceParcelBoundary :=
    sees_keeping.forceParcelBoundary
      (fun _ => Keeps.modify fun later beside => beside.modifyModule fun _ => rfl)
      (fun _ => Keeps.modify fun _ beside =>
        ⟨beside.base, beside.qualifier, beside.sectionId, beside.absolute⟩)
  exact (keeps context (.refl context)).1

theorem symbols_forceParcelBoundary (context : Context) :
    (forceParcelBoundary.run context).2.currentModule.symbols = context.currentModule.symbols := by
  have keeps : Keeps (fun later => later.currentModule.symbols = context.currentModule.symbols)
      forceParcelBoundary :=
    sees_keeping.forceParcelBoundary
      (fun change => Keeps.modify fun later same =>
        (Context.currentModule_congr_section (fun _ _ _ => rfl) later change).trans same)
      (fun _ => Keeps.modify fun _ same => same)
  exact (keeps context rfl).1

/-- The context at the next parcel boundary, whose address is shown beside the statement. -/
def aligned (context : Context) : Context :=
  let placed := (forceParcelBoundary.run context).2
  placed.modifyStatement fun statement =>
    { statement with
      address := some (Listing.addressText (placed.counterValue .parcel).numeric .parcel) }

theorem opened_eq (context : Context) (location : String) :
    context.opened location =
      { ((defineSymbol location ((aligned context).counterValue .parcel) false).run
          (aligned context)).2 with inInstruction := true } :=
  rfl

theorem beside_aligned (context : Context) : Beside context (aligned context) :=
  have beside := beside_forceParcelBoundary context
  ⟨beside.base, beside.qualifier, beside.sectionId, beside.absolute⟩

theorem symbols_aligned (context : Context) :
    (aligned context).currentModule.symbols = context.currentModule.symbols :=
  symbols_forceParcelBoundary context

theorem advanced_aligned {context : Context} (seated : Seated context) :
    Advanced (context.currentSection.gap parcelBits) context (aligned context) :=
  Advanced.poised (advances_forceParcelBoundary context seated) ⟨rfl, rfl, rfl, rfl, rfl, rfl, id⟩

theorem beside_opened (context : Context) (location : String) :
    Beside context (context.opened location) := by
  have defined : Beside context ((defineSymbol location ((aligned context).counterValue .parcel)
      false).run (aligned context)).2 :=
    (keeps_defineSymbol (fun kind => .modify fun _ beside => ?_) location
      (fun beside _ => beside.modifyModule fun _ => rfl) (aligned context) (beside_aligned context)).1
  · rw [opened_eq]
    exact ⟨defined.base, defined.qualifier, defined.sectionId, defined.absolute⟩
  · exact ⟨beside.base, beside.qualifier, beside.sectionId, beside.absolute⟩

theorem formed_opened {context : Context} (formed : context.Formed) (location : String) :
    (context.opened location).Formed := by
  have tracks : Tracks Module.formation context.moduleIndex context.moduleIndex context :=
    ⟨⟨formed.seated.1, formed.module⟩, rfl⟩
  have placed := ((places_tracks.forceParcelBoundary.bind fun _ =>
    reads_tracks.defineParcelLabel location) context tracks).1
  have opened : Tracks Module.formation context.moduleIndex context.moduleIndex
    (context.opened location) := placed.aside rfl rfl
  exact ⟨(advanced_opened formed.seated location).seated, opened.currentModule rfl⟩

/-- A statement without a label leaves the symbols alone. -/
theorem symbols_opened_empty (context : Context) :
    (context.opened "").currentModule.symbols = context.currentModule.symbols :=
  symbols_aligned context

/-- A label that is no name draws an error. -/
theorem identifier_of_quiet {context : Context} {location : String}
    (quiet : ¬ Faulty (context.opened location)) :
    location = "" ∨ Fields.isIdentifier location := by
  by_cases empty : location.isEmpty
  · exact .inl (String.isEmpty_iff.mp empty)
  · refine .inr (Decidable.byContradiction fun invalid => quiet ?_)
    rw [opened_eq]
    unfold defineSymbol
    rw [if_neg empty, if_pos (by simpa using invalid)]
    exact hasErrors_error .locationField (aligned context)

end Opening

section Labels

variable {context : Context} {location : String} {name : Name}

/-- The label of an instruction cannot be defined. -/
def LabelRefused (context : Context) (location : String) : Prop :=
  SymbolTable.conflicts (context.currentModule.symbols.value ⟨context.qualifier.current, location⟩)
    ((aligned context).counterValue .parcel) false context.pass = true

/-- A name means the label of a statement. -/
def Means (context : Context) (location : String) (name : Name) : Prop :=
  name.name = location ∧ name.qualifier.getD context.qualifier.current = context.qualifier.current

instance (context : Context) (location : String) (name : Name) :
    Decidable (Means context location name) :=
  inferInstanceAs (Decidable (_ ∧ _))

/-- A symbol is defined, or that is an error. -/
theorem symbols_defineSymbol (seated : Seated context) (identifier : Fields.isIdentifier location)
    (value : Value) (redefinable : Bool) :
    (SymbolTable.conflicts (context.currentModule.symbols.value ⟨context.qualifier.current, location⟩)
        value redefinable context.pass = true ∧
      ((defineSymbol location value redefinable).run context).2.currentModule.symbols =
        context.currentModule.symbols ∧
      Faulty ((defineSymbol location value redefinable).run context).2) ∨
    (¬ SymbolTable.conflicts (context.currentModule.symbols.value
        ⟨context.qualifier.current, location⟩) value redefinable context.pass = true ∧
      ∃ entry, ((defineSymbol location value redefinable).run context).2.currentModule.symbols =
        context.currentModule.symbols.insert ⟨context.qualifier.current, location⟩
          (value.held redefinable context.pass entry)) := by
  obtain ⟨entry, outcome⟩ := SymbolTable.define_eq context.currentModule.symbols
    ⟨context.qualifier.current, location⟩ value redefinable context.pass
  rw [run_defineSymbol identifier, outcome]
  by_cases refused : SymbolTable.conflicts (context.currentModule.symbols.value
    ⟨context.qualifier.current, location⟩) value redefinable context.pass = true
  · rw [if_pos refused]
    exact .inl ⟨refused, rfl, hasErrors_error _ _⟩
  · rw [if_neg refused]
    exact .inr ⟨refused, entry, congrArg (·.symbols) (Context.currentModule_modifyModule seated.1 _)⟩

theorem symbols_opened (seated : Seated context) (identifier : Fields.isIdentifier location) :
    (LabelRefused context location ∧
      (context.opened location).currentModule.symbols = context.currentModule.symbols ∧
      Faulty (context.opened location)) ∨
    (¬ LabelRefused context location ∧ ∃ entry, (context.opened location).currentModule.symbols =
      context.currentModule.symbols.insert ⟨context.qualifier.current, location⟩
        (((aligned context).counterValue .parcel).held false context.pass entry)) := by
  have placed := advanced_aligned seated
  have defined := symbols_defineSymbol placed.seated identifier
    ((aligned context).counterValue .parcel) false
  rw [symbols_aligned, (beside_aligned context).qualifier, placed.pass] at defined
  rw [opened_eq]
  exact defined

theorem lookup_opened (context : Context) (location : String) (name : Name) :
    (context.opened location).lookup name =
      (context.opened location).currentModule.symbols.lookup name context.qualifier.current := by
  unfold Context.lookup
  rw [(beside_opened context location).qualifier]

/-- Names that do not mean the label mean what they meant before. -/
theorem lookup_opened_of_ne (seated : Seated context) (identifier : Fields.isIdentifier location)
    (other : ¬ Means context location name) :
    (context.opened location).lookup name = context.lookup name := by
  rw [lookup_opened]
  rcases symbols_opened seated identifier with ⟨-, same, -⟩ | ⟨-, entry, same⟩
  · rw [same]
    rfl
  · rw [same]
    exact SymbolTable.lookup_insert_of_ne _ _ (not_and_or.mp other)

/-- Once it is defined, the label has the address of the instruction for its value. -/
theorem lookup_opened_label (seated : Seated context) (identifier : Fields.isIdentifier location)
    (accepted : ¬ LabelRefused context location) (means : Means context location name) :
    ∃ entry, (context.opened location).lookup name =
      ((aligned context).counterValue .parcel).held false context.pass entry := by
  rcases symbols_opened seated identifier with ⟨refused, -⟩ | ⟨-, entry, same⟩
  · exact absurd refused accepted
  · refine ⟨entry, ?_⟩
    rw [lookup_opened, same]
    obtain ⟨rfl, current⟩ := means
    exact SymbolTable.lookup_insert_self _ rfl current

end Labels

end Asm

end CrayAssembler
