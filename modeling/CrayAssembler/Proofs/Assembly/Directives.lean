import CrayAssembler.Proofs.Assembly.Placing
import CrayAssembler.Proofs.Walk.Statements

namespace CrayAssembler

theorem DiagnosticSet.contains_moduleEnd_insert {set : DiagnosticSet} {d : Diagnostic} :
    (set.insert d).contains .moduleEnd ↔ d = .moduleEnd ∨ set.contains .moduleEnd := by
  have known : Diagnostic.moduleEnd ∈ Diagnostic.all := by decide
  unfold insert contains
  rw [List.contains_iff_mem, List.mem_filter, Bool.or_eq_true, beq_iff_eq]
  exact ⟨fun ⟨_, either⟩ => either.imp_left Eq.symm, fun either => ⟨known, either.imp_left Eq.symm⟩⟩

namespace Asm

variable {start : Context}

section Lifting

theorem follows_error (kind : ErrorKind) : Keeps (Follows start) (error kind) :=
  .quietFollows fun _ sound => (reads_quiet sound).error kind

theorem follows_ignoreLocation (fields : Fields) :
    Keeps (Follows start) (ignoreLocation fields) :=
  .quietFollows fun _ sound => (reads_quiet sound).ignoreLocation fields

theorem follows_noOperand (fields : Fields) : Keeps (Follows start) (noOperand fields) :=
  .quietFollows fun _ sound => (reads_quiet sound).noOperand fields

end Lifting

section Symbols

/-- Externals are added to those of the module, so this is not quiet. -/
theorem follows_declareExternal (name : String) :
    Keeps (Follows start) (declareExternal name) := by
  have failed (kind : ErrorKind) : Keeps (Follows start) (error kind) :=
    .modify fun _ follows => follows.deed (.aside ..)
  refine keeps_declareExternal failed name fun {_ _ symbols} follows made => ?_
  refine follows.deed (.of_module (.declareExternal _ symbols made) (.of_sections ?_ ?_ ?_))
  · exact Module.addExternal_sections _ _
  · exact Module.addExternal_literals _ _
  · exact Module.addExternal_ended _ _

theorem follows_declareExternals (fields : Fields) :
    Keeps (Follows start) (declareExternals fields) := by
  refine (follows_ignoreLocation fields).bind fun _ => ?_
  refine (Keeps.quietFollows fun _ sound => (reads_quiet sound).nameList fields).bind fun names? => ?_
  cases names? with
  | none => exact .pure trivial
  | some names =>
    refine Gives.bindGet fun context _ => ?_
    refine Gives.complain (Keeps.quietFollows fun _ sound => (reads_quiet sound).warn _) ?_
    exact Keeps.forM fun name _ => follows_declareExternal name

end Symbols

section Sections

/-- A section of the current module has been found that is not the one of literals. -/
structure Known (start : Context) (id : SectionId) (context : Context) : Prop where
  follows : Follows start context
  id_lt : id < context.currentModule.sections.length
  apart : context.Named → id ≠ literalsSection

theorem ne_of_isIdentifier {name : String} (plain : name.isEmpty ∨ Fields.isIdentifier name) :
    name ≠ "=" := by
  rintro rfl
  exact absurd plain (by decide)

/-- A section that is found under a name that statements can give is not the one of literals. -/
theorem apart_findSection? {name : String} (plain : name ≠ "=") {type : SectionType}
    {residency : Residency} {context : Context} (sound : context.Sound) (named : context.Named)
    {id : SectionId} (found : context.currentModule.findSection? name type residency = some id) :
    id ≠ literalsSection := by
  rintro rfl
  have literals := named _ (List.mem_of_getElem? (Context.modules_of_current sound.current_lt))
  obtain ⟨sec, lookup, same⟩ := Option.map_eq_some_iff.mp literals
  obtain ⟨known, holds, -⟩ := List.findIdx?_eq_some_iff_getElem.mp found
  have here := (List.getElem?_eq_getElem known).symm.trans lookup
  rw [Option.some.inj here, Bool.and_eq_true, Bool.and_eq_true, decide_eq_true_eq] at holds
  exact plain (holds.1.1.symm.trans same)

theorem known_findOrAddSection {name : String} (plain : name ≠ "=") (type : SectionType)
    (residency : Residency) {context : Context} (follows : Follows start context) :
    Follows start ((findOrAddSection name type residency).run context).2 ∧
      ∀ id, ((findOrAddSection name type residency).run context).1 = some id →
        Known start id ((findOrAddSection name type residency).run context).2 := by
  unfold findOrAddSection
  rw [StateT.run_bind, StateT.run_get, pure_bind]
  dsimp only
  split
  case h_1 id found =>
    refine ⟨follows, ?_⟩
    rintro _ ⟨⟩
    exact ⟨follows, (List.findIdx?_eq_some_iff_findIdx_eq.mp found).1, fun named =>
      apart_findSection? plain follows.sound named found⟩
  case h_2 first =>
    have added := follows.deed (.addSection name type residency first)
    refine ⟨added, ?_⟩
    rintro _ ⟨⟩
    refine ⟨added, ?_, fun _ => Nat.ne_of_gt follows.sound.currentModule.literals_lt⟩
    change context.currentModule.sections.length <
      (context.modifyModule fun module =>
        module.addSection name type residency).currentModule.sections.length
    rw [Context.currentModule_modifyModule follows.sound.current_lt]
    change _ < (context.currentModule.sections ++ [_]).length
    rw [List.length_append]
    exact Nat.lt_add_one _
  case h_3 => exact ⟨follows.deed (.aside ..), noValue⟩

theorem known_selectSection (id : SectionId) : Keeps (Known start id) (selectSection id) := by
  intro context known
  have saved := known.follows.sound.sections_lt
  unfold selectSection
  rw [StateT.run_bind, StateT.run_get, pure_bind]
  dsimp only
  split
  · refine ⟨⟨known.follows.deed (.selectSection ?_ fun named => ?_), known.id_lt, known.apart⟩,
      trivial⟩
    · exact List.forall_mem_cons.mpr ⟨known.id_lt, (List.forall_mem_cons.mp saved).2⟩
    · exact List.forall_mem_cons.mpr ⟨.inr (known.apart named), fun other member =>
        .inl (List.mem_cons_of_mem _ member)⟩
  · unfold change
    split
    case h_1 setting replaced =>
      unfold Setting.replace BoundedStack.push at replaced
      split at replaced
      · cases replaced
        refine ⟨⟨known.follows.deed (.selectSection ?_ fun named => ?_), known.id_lt, known.apart⟩,
          trivial⟩
        · exact List.forall_mem_cons.mpr ⟨known.id_lt, saved⟩
        · exact List.forall_mem_cons.mpr ⟨.inr (known.apart named), fun other member => .inl member⟩
      · nomatch replaced
    case h_2 =>
      exact ⟨⟨known.follows.deed (.aside ..), known.id_lt, known.apart⟩, trivial⟩

theorem follows_previousSection : Keeps (Follows start) previousSection := by
  intro context follows
  obtain ⟨current, saved⟩ := List.forall_mem_cons.mp follows.sound.sections_lt
  unfold previousSection
  rw [StateT.run_bind, StateT.run_get, pure_bind]
  dsimp only
  split
  · refine ⟨follows.deed (.selectSection ?_ fun _ => ?_), trivial⟩
    · exact List.forall_mem_cons.mpr ⟨Nat.lt_of_le_of_lt (Nat.zero_le _) current, saved⟩
    · exact List.forall_mem_cons.mpr ⟨.inr Nat.zero_ne_one, fun other member =>
        .inl (List.mem_cons_of_mem _ member)⟩
  · unfold change
    split
    case h_1 setting restored =>
      unfold Setting.restore BoundedStack.pop at restored
      split at restored
      · nomatch restored
      case h_2 old rest _ stack =>
        cases restored
        rw [stack] at saved
        refine ⟨follows.deed (.selectSection saved fun _ id member => .inl ?_), trivial⟩
        refine List.mem_cons_of_mem _ ?_
        rw [stack]
        exact member
    case h_2 => exact ⟨follows.deed (.aside ..), trivial⟩

/-- A section is found or added, and what is done with it keeps to deeds. -/
theorem follows_withSection {name : String} (plain : name ≠ "=") (type : SectionType)
    (residency : Residency) {use : SectionId → AsmM Unit}
    (kept : ∀ id context, Known start id context → Follows start ((use id).run context).2) :
    Keeps (Follows start) (do
      match ← findOrAddSection name type residency with
      | none => return ()
      | some id => use id) := by
  intro context follows
  have found := known_findOrAddSection plain type residency follows
  refine ⟨?_, trivial⟩
  change Follows start (StateT.run
    (match ((findOrAddSection name type residency).run context).1 with
    | none => return ()
    | some id => use id) ((findOrAddSection name type residency).run context).2).2
  split
  · exact found.1
  case h_2 id same => exact kept id _ (found.2 id same)

theorem follows_openSection (fields : Fields) : Keeps (Follows start) (openSection fields) := by
  unfold openSection
  dsimp only
  split
  · refine (follows_ignoreLocation fields).bind fun _ => ?_
    exact follows_previousSection
  split
  · exact follows_error _
  split
  · exact follows_error _
  case isFalse valid =>
  have plain : fields.location ≠ "=" := by
    rintro same
    rw [same] at valid
    exact absurd valid (by decide)
  refine follows_withSection plain _ _ fun id context known => ?_
  have selected := (known_selectSection id context known).1
  split
  · have value : Fitting ((selectSection id).run context).2 (.address .word id
        (UInt64.ofNat ((selectSection id).run context).2.currentSection.baseWord)
        ((selectSection id).run context).2.relocatable) :=
      Value.refers_address _ selected.id_lt _ _
    exact selected.follows.quiet
      (quiet_defineSymbol selected.follows.sound fields.location false value _ (.refl _)).1
  · exact selected.follows

theorem follows_openNamed (type : SectionType) (fields : Fields) :
    Keeps (Follows start) (openNamed type fields) := by
  refine (follows_ignoreLocation fields).bind fun _ => ?_
  dsimp only
  split
  · exact follows_previousSection
  split
  case isTrue plain =>
    exact follows_withSection (ne_of_isIdentifier (Bool.or_eq_true_iff.mp plain)) _ _
      fun id context known => (known_selectSection id context known).1.follows
  · exact follows_error _

end Sections

section Modules

theorem follows_enterModule {index : Nat} {context : Context} (follows : Follows start context)
    (known : index < context.modules.length)
    (fresh : context.Open → (context.moduleAt index).ended = false)
    (next : context.pass = .two → index = context.modulesOpened + 1) :
    Follows start ((enterModule index).run context).2 := by
  have sound := ((Step.enter index known).leads follows.sound).1
  have entered : Follows start (context.entered index) :=
    ⟨sound, follows.sessions.enter known fresh next⟩
  exact entered.deed (.aside ..)

theorem follows_openModule (fields : Fields) : Keeps (Follows start) (openModule fields) := by
  refine (follows_ignoreLocation fields).bind fun _ => ?_
  intro context follows
  rw [StateT.run_bind, StateT.run_get, pure_bind]
  dsimp only
  split
  · exact follows_error _ context follows
  split
  · exact follows_error _ context follows
  split
  case h_1 first =>
    split
    · exact follows_error _ context follows
    · have added := follows.deed (.addModule fields.operand first)
      refine ⟨follows_enterModule added ?_ (fun _ => ?_) fun second => ?_, trivial⟩
      · rw [List.length_append]
        exact Nat.lt_add_one _
      · unfold Context.moduleAt
        rw [List.getD_eq_getElem?_getD, List.getElem?_append_right (Nat.le_refl _), Nat.sub_self]
        rfl
      · nomatch first.symm.trans second
  case h_2 second =>
    split
    case isTrue found =>
      refine ⟨follows_enterModule follows ?_ (fun opened => ?_) fun _ => rfl, trivial⟩
      · cases lookup : context.modules[context.modulesOpened + 1]? with
        | none => rw [lookup] at found; nomatch found
        | some module => exact (List.getElem?_eq_some_iff.mp lookup).1
      · exact opened.ahead second _ (Nat.lt_add_one _)
    case isFalse => exact follows_error _ context follows

/-- What survives a change of the statement or the listing, the placing of literals and the giving of
an object module. -/
structure Closable (P : Context → Prop) : Prop where
  aside : ∀ {context : Context} {statement : StatementState} (listing : Array Listing.Item),
    context.statement.diagnostics.Noted statement.diagnostics → P context →
    P { context with statement, listing }
  placeLiterals : ∀ {context : Context}, P context → P (context.modifyModule fun _ =>
    { context.currentModule.placeLiterals.1 with ended := true })
  produce : ∀ {context : Context}, context.pass = .two → P context →
    P { context with objects := context.objects.push context.currentModule.toObject }

/-- The object module that is given is that of the module as it was closed: only the listing and the
statement are changed in between. -/
theorem Closable.produceObject {P : Context → Prop} (closable : Closable P) :
    Keeps P produceObject := by
  intro context holds
  unfold Asm.produceObject
  rw [StateT.run_bind, StateT.run_get, pure_bind]
  dsimp only
  split
  case isTrue wanted =>
    have second : context.pass = .two :=
      of_decide_eq_true (Bool.and_eq_true_iff.mp wanted).1
    let Same (later : Context) : Prop := P later ∧ later.currentModule = context.currentModule ∧
      later.pass = context.pass
    have complaint : Keeps Same (error .undefinedSymbol) :=
      .modify fun later known => ⟨closable.aside later.listing (.insert _) known.1, known.2⟩
    have listed : ∀ item, Keeps Same (modify fun later =>
        { later with listing := later.listing.push item } : AsmM PUnit) := fun _ =>
      .modify fun later known => ⟨closable.aside _ .same known.1, known.2⟩
    have given : Keeps Same (modify fun later =>
        { later with objects := later.objects.push context.currentModule.toObject } :
          AsmM PUnit) := by
      refine .modify fun later known => ⟨?_, known.2⟩
      rw [← known.2.1]
      exact closable.produce (known.2.2.trans second) known.1
    refine ⟨And.left (?_ : Same _), trivial⟩
    exact (Gives.complain (listed _) (Gives.complain complaint given) context ⟨holds, rfl, rfl⟩).1
  case isFalse => exact ⟨holds, trivial⟩

theorem Closable.closeModule {P : Context → Prop} (closable : Closable P) :
    Keeps P closeModule := by
  intro context holds
  have placed := closable.placeLiterals holds
  unfold Asm.closeModule
  rw [StateT.run_bind, StateT.run_get, pure_bind]
  dsimp only
  rw [StateT.run_bind, run_modifyModule, pure_bind]
  dsimp only
  split
  case h_1 kind _ =>
    have complaint : Keeps P (error kind) :=
      .modify fun later known => closable.aside later.listing (.insert _) known
    exact (complaint.bind fun _ => closable.produceObject) _ placed
  · exact closable.produceObject _ placed

/-- Giving an object module touches nothing but the statement and the listing. -/
theorem produceObject_eq (context : Context) : ∃ statement listing,
    (produceObject.run context).2 = if context.gives then
        { context with
          statement, listing, objects := context.objects.push context.currentModule.toObject }
      else { context with statement, listing } := by
  unfold produceObject Context.gives
  rw [StateT.run_bind, StateT.run_get, pure_bind]
  dsimp only
  split
  · split <;> split <;> exact ⟨_, _, rfl⟩
  · exact ⟨_, _, rfl⟩

/-- What closing a module comes to. -/
theorem closeModule_eq (context : Context) : ∃ statement listing,
    (closeModule.run context).2 = { context.closed with statement, listing } := by
  have given (later : StatementState) : ∃ statement listing,
      (produceObject.run { context.sealed with statement := later }).2 =
        { context.closed with statement, listing } := by
    obtain ⟨statement, listing, result⟩ :=
      produceObject_eq { context.sealed with statement := later }
    refine ⟨statement, listing, result.trans ?_⟩
    unfold Context.closed
    change (if context.sealed.gives then _ else _) = _
    split <;> rfl
  unfold closeModule
  rw [StateT.run_bind, StateT.run_get, pure_bind]
  dsimp only
  rw [StateT.run_bind, run_modifyModule, pure_bind]
  dsimp only
  split
  · exact given _
  · exact given context.statement

/-- The current module has been closed, and is left when the statement ends. -/
structure Closing (start context : Context) : Prop where
  noted : context.statement.diagnostics.contains .moduleEnd
  closed : ∃ before statement listing, Follows start before ∧
    before.moduleIndex ≠ Context.anonymousModule ∧
    context = { before.closed with statement, listing }

/-- Where a statement may have come to: on, or to the end of its module. -/
def Midway (start context : Context) : Prop := Follows start context ∨ Closing start context

theorem Keeps.midway {α : Type} {action : AsmM α} (keeps : Keeps (Follows start) action) :
    Takes (Follows start) action (Midway start) :=
  fun context follows => .inl (keeps context follows).1

theorem midway_endModule (fields : Fields) :
    Takes (Follows start) (endModule fields) (Midway start) := by
  refine (follows_ignoreLocation fields).takesBind fun _ => ?_
  refine (follows_noOperand fields).takesBind fun _ context follows => ?_
  rw [StateT.run_bind, StateT.run_get, pure_bind]
  dsimp only
  split
  · exact (follows_error _).midway context follows
  case isFalse inside =>
    obtain ⟨statement, listing, closed⟩ := closeModule_eq context
    have ended : ((do
        closeModule
        note .moduleEnd : AsmM Unit).run context).2 = ({ context.closed with
          statement, listing } : Context).register .moduleEnd := by
      rw [← closed]
      rfl
    refine .inr ⟨?_, context, _, listing, follows, inside, ended⟩
    rw [ended]
    exact DiagnosticSet.contains_moduleEnd_insert.mpr (.inl rfl)

end Modules

/-- Whatever a directive does that closes no module is a chain of steps. -/
theorem follows_directive {directive : Directive} (goesOn : directive ≠ .endModule)
    (fields : Fields) : Keeps (Follows start) (directive.run fields) := by
  cases directive with
  | openModule => exact follows_openModule fields
  | endModule => exact absurd rfl goesOn
  | openSection => exact follows_openSection fields
  | openBlock => exact follows_openNamed .mixed fields
  | openCommon => exact follows_openNamed .common fields
  | declareExternals => exact follows_declareExternals fields
  | _ => exact .follows fun _ _ => places_within.directive (by decide) fields

theorem midway_directive (directive : Directive) (fields : Fields) :
    Takes (Follows start) (directive.run fields) (Midway start) := by
  by_cases ends : directive = .endModule
  · rw [ends]
    exact midway_endModule fields
  · exact (follows_directive ends fields).midway

end Asm

end CrayAssembler
