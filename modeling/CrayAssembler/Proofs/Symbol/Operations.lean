import CrayAssembler.Proofs.Symbol.Persistence
import Mathlib.Data.List.Induction

namespace CrayAssembler

namespace SymbolTable

/-- What can be done to a table. -/
inductive Operation where
  /-- Open a qualifier, which has no symbols yet. -/
  | addQualifier (name : String)
  | reference (key : SymbolKey)
  | define (key : SymbolKey) (value : Value) (redefinable : Bool)
  | markEntry (key : SymbolKey)
  | makeExternal (key : SymbolKey) (index : Nat)

/-- The table that an operation leads to, or why it is refused. A table knows qualifiers by their
symbols. -/
def Operation.perform (pass : Pass) (table : SymbolTable) : Operation → Except ErrorKind SymbolTable
  | addQualifier _ => .ok table
  | reference key => .ok (table.reference key).2
  | define key value redefinable => table.define key value redefinable pass
  | markEntry key => .ok (table.markEntry key)
  | makeExternal key index => table.makeExternal key index

/-- The table after an operation; one that is refused leaves it as it was. -/
def after (pass : Pass) (table : SymbolTable) (operation : Operation) : SymbolTable :=
  match operation.perform pass table with
  | .ok changed => changed
  | .error _ => table

/-- The table after a sequence of operations. -/
def afterAll (pass : Pass) (table : SymbolTable) (operations : List Operation) : SymbolTable :=
  operations.foldl (after pass) table

section Operations

variable {pass : Pass} {table : SymbolTable} {key : SymbolKey} {operation : Operation}

theorem change_after (pass : Pass) (table : SymbolTable) (operation : Operation) :
    Change pass table (after pass table operation) := by
  unfold after
  cases operation with
  | addQualifier name => exact .keep
  | reference key =>
    rw [Operation.perform, reference_eq]
    exact .mention key
  | define key new redefinable =>
    rw [Operation.perform]
    split
    case h_1 changed made => exact .define key new redefinable made
    case h_2 => exact .keep
  | markEntry key => exact .markEntry key
  | makeExternal key index =>
    rw [Operation.perform]
    split
    case h_1 changed made => exact .makeExternal key index made
    case h_2 => exact .keep

/-- A definition enters its value or, when it conflicts with the old one, is refused. -/
theorem after_define (pass : Pass) (table : SymbolTable) (key : SymbolKey) (new : Value)
    (redefinable : Bool) :
    ∃ entry, after pass table (.define key new redefinable) =
      if conflicts (table.value key) new redefinable pass then table
      else table.insert key (new.held redefinable pass entry) := by
  obtain ⟨entry, result⟩ := define_eq table key new redefinable pass
  refine ⟨entry, ?_⟩
  rw [after, Operation.perform, result]
  by_cases refused : conflicts (table.value key) new redefinable pass = true
  · rw [if_pos refused, if_pos refused]
  · rw [if_neg refused, if_neg refused]

theorem afterAll_append (pass : Pass) (table : SymbolTable) (first second : List Operation) :
    afterAll pass table (first ++ second) = afterAll pass (afterAll pass table first) second :=
  List.foldl_append

theorem afterAll_concat (pass : Pass) (table : SymbolTable) (first : List Operation)
    (last : Operation) :
    afterAll pass table (first ++ [last]) = after pass (afterAll pass table first) last :=
  afterAll_append pass table first [last]

end Operations

section Entries

variable {pass : Pass} {table changed : SymbolTable} {key : SymbolKey}

/-- An entry point stays one. -/
theorem Change.entry (change : Change pass table changed)
    (marked : (table.value key).attributes.entry = true) :
    (changed.value key).attributes.entry = true := by
  cases change with
  | keep => exact marked
  | mention other => rwa [value_mention]
  | define other new redefinable made =>
    by_cases same : other = key
    · subst same
      unfold value at marked
      unfold SymbolTable.define at made
      cases found : table.get? other with
      | none =>
        rw [found] at marked
        nomatch marked
      | some old =>
        rw [found] at made marked
        dsimp only at made
        split at made
        · nomatch made
        · cases made
          rw [value_insert, if_pos rfl]
          exact marked
    · obtain ⟨entry, result⟩ := define_eq table other new redefinable pass
      rw [result] at made
      split at made
      · nomatch made
      · cases made
        rwa [value_insert, if_neg same]
  | markEntry other =>
    unfold SymbolTable.markEntry
    rw [reference_eq]
    dsimp only
    rw [value_insert]
    split
    · rfl
    · rwa [value_mention]
  | makeExternal other index made =>
    unfold SymbolTable.makeExternal at made
    rw [reference_eq] at made
    dsimp only at made
    split at made
    · cases made
      rwa [value_mention]
    split at made
    · nomatch made
    · cases made
      rw [value_insert]
      split
      case isTrue same =>
        subst same
        exact marked
      case isFalse => rwa [value_mention]

theorem entry_afterAll (pass : Pass) (marked : (table.value key).attributes.entry = true)
    (operations : List Operation) :
    ((afterAll pass table operations).value key).attributes.entry = true := by
  induction operations generalizing table with
  | nil => exact marked
  | cons first rest ih => exact ih ((change_after pass table first).entry marked)

theorem entry_adjust (offset : SectionId → Nat)
    (marked : (table.value key).attributes.entry = true) :
    ((table.adjust offset).value key).attributes.entry = true := by
  rw [value_adjust]
  unfold displace
  split
  · exact marked
  · split <;> exact marked

end Entries

/-- A symbol has the value that it had when pass 2 began, for good. -/
structure Fixed (given now : Value) : Prop where
  same : now.same given
  redefinable : now.attributes.redefinable = false

section Fixed

variable {table : SymbolTable} {key : SymbolKey} {given now new : Value} {redefinable : Bool}

/-- When pass 2 refuses a definition of a symbol that is fixed: it is not the first of this pass, or it
is for good and differs. -/
theorem Fixed.conflicts_iff (fixed : Fixed given now) (defined : given.isUndefined = false)
    (internal : given.isExternal = false) :
    conflicts now new redefinable .two = true ↔
      now.attributes.definedInPassTwo = true ∨ redefinable = false ∧ ¬given.same new = true := by
  have known : now.isUndefined = false := (Value.isUndefined_of_same fixed.same).trans defined
  have own : now.isExternal = false := (Value.isExternal_of_same fixed.same).trans internal
  have same : now.same new = given.same new := by
    rw [Bool.eq_iff_iff]
    exact ⟨Value.same_trans (Value.same_symm fixed.same), Value.same_trans fixed.same⟩
  unfold conflicts
  rw [known, own, fixed.redefinable, same]
  cases now.attributes.definedInPassTwo <;> cases redefinable <;> simp

/-- A value that stands for good is kept by every operation, unless it is a redefinable definition
before any other one of this pass. -/
theorem Fixed.after {operation : Operation} (fixed : Fixed given (table.value key))
    (defined : given.isUndefined = false) (internal : given.isExternal = false)
    (guarded : ∀ new, operation = .define key new true →
      (table.value key).attributes.definedInPassTwo = true) :
    Fixed given ((after .two table operation).value key) := by
  cases operation with
  | addQualifier name => exact fixed
  | reference other =>
    rw [SymbolTable.after, Operation.perform, reference_eq, value_mention]
    exact fixed
  | define other new redefinable =>
    obtain ⟨entry, result⟩ := after_define .two table other new redefinable
    rw [result]
    split
    · exact fixed
    case isFalse agrees =>
      rw [value_insert]
      by_cases same : other = key
      · subst same
        rw [if_pos rfl]
        rw [fixed.conflicts_iff defined internal] at agrees
        cases redefinable with
        | true => exact absurd (.inl (guarded new rfl)) agrees
        | false =>
          have equal : given.same new = true :=
            Classical.not_not.mp fun differs => agrees (.inr ⟨rfl, differs⟩)
          exact ⟨Value.same_trans (Value.held_same ..) (Value.same_symm equal), rfl⟩
      · rw [if_neg same]
        exact fixed
  | markEntry other =>
    obtain ⟨entry, marked⟩ := value_markEntry table other key
    rw [SymbolTable.after, Operation.perform, marked]
    exact ⟨Value.same_trans (Value.same_iff.mpr rfl) fixed.same, fixed.redefinable⟩
  | makeExternal other index =>
    rw [SymbolTable.after, Operation.perform]
    split
    case h_1 changed made =>
      rcases value_makeExternal made key with same | ⟨undefined, -⟩
      · rw [same]
        exact fixed
      · rw [Value.isUndefined_of_same fixed.same, defined] at undefined
        nomatch undefined
    case h_2 => exact fixed

/-- The value stays through a sequence of operations in which another definition of this pass stands
before every redefinable one. -/
theorem Fixed.afterAll (fixed : Fixed given (table.value key)) (defined : given.isUndefined = false)
    (internal : given.isExternal = false) {operations : List Operation}
    (guarded : ∀ before new rest, operations = before ++ .define key new true :: rest →
      ((afterAll .two table before).value key).attributes.definedInPassTwo = true) :
    Fixed given ((afterAll .two table operations).value key) := by
  induction operations using List.reverseRecOn with
  | nil => exact fixed
  | append_singleton earlier last ih =>
    rw [afterAll_concat]
    refine (ih fun before new rest split => ?_).after defined internal fun new same => ?_
    · refine guarded before new (rest ++ [last]) ?_
      rw [split, List.append_assoc, List.cons_append]
    · exact guarded earlier new [] (by rw [same])

/-- What becomes of one more definition of a symbol that is fixed. -/
theorem Fixed.define_cases (fixed : Fixed given (table.value key))
    (defined : given.isUndefined = false) (internal : given.isExternal = false) (new : Value)
    (redefinable : Bool) :
    (table.define key new redefinable .two = .error .doubleDefinition ∧
        SymbolTable.after .two table (.define key new redefinable) = table) ∨
      (∃ changed, table.define key new redefinable .two = .ok changed ∧
        SymbolTable.after .two table (.define key new redefinable) = changed ∧
        (changed.value key).same new ∧
        (table.value key).attributes.definedInPassTwo = false ∧
        (redefinable = true ∨ (changed.value key).same given)) := by
  obtain ⟨entry, result⟩ := define_eq table key new redefinable .two
  by_cases refused : conflicts (table.value key) new redefinable .two = true
  · rw [if_pos refused] at result
    exact .inl ⟨result, by rw [SymbolTable.after, Operation.perform, result]⟩
  · rw [if_neg refused] at result
    have kept : ((table.insert key (new.held redefinable .two entry)).value key).same new := by
      rw [value_insert, if_pos rfl]
      exact Value.held_same ..
    rw [fixed.conflicts_iff defined internal, not_or] at refused
    obtain ⟨first, agrees⟩ := refused
    refine .inr ⟨_, result, by rw [SymbolTable.after, Operation.perform, result], kept,
      eq_false_of_ne_true first, ?_⟩
    cases redefinable with
    | true => exact .inl rfl
    | false =>
      have equal : given.same new = true :=
        Classical.not_not.mp fun differs => agrees ⟨rfl, differs⟩
      exact .inr (Value.same_trans kept (Value.same_symm equal))

end Fixed

/-- The table in pass 2, after the operations of pass 1, the displacement of the sections and the
operations that pass 2 has done so far. -/
def inPassTwo (passOne : List Operation) (offset : SectionId → Nat) (passTwo : List Operation) :
    SymbolTable :=
  afterAll .two ((afterAll .one empty passOne).adjust offset) passTwo

/-- What pass 1 has settled, externals aside, keeps its displaced value through pass 2 if no redefinable
definition of it stands before the first definition of pass 2. One more definition is then refused, and
leaves the table as it is, or agrees; all others that are accepted are redefinable and the first of
this pass. Entry points stay entry points, whatever is done. -/
theorem fixed_inPassTwo {passOne passTwo : List Operation} {offset : SectionId → Nat} {key : SymbolKey}
    (settled : Settled ((afterAll .one empty passOne).value key))
    (internal : ((afterAll .one empty passOne).value key).isExternal = false)
    (guarded : ∀ before new rest, passTwo = before ++ .define key new true :: rest →
      ((inPassTwo passOne offset before).value key).attributes.definedInPassTwo = true) :
    let given := displace offset ((afterAll .one empty passOne).value key)
    let table := inPassTwo passOne offset passTwo
    (table.value key).same given ∧
      (∀ new redefinable,
        (table.define key new redefinable .two = .error .doubleDefinition ∧
            after .two table (.define key new redefinable) = table) ∨
          ∃ changed, table.define key new redefinable .two = .ok changed ∧
            after .two table (.define key new redefinable) = changed ∧
            (changed.value key).same new ∧
            (table.value key).attributes.definedInPassTwo = false ∧
            (redefinable = true ∨ (changed.value key).same given)) ∧
      ∀ other,
        (∀ before rest, passOne = before ++ rest →
          ((afterAll .one empty before).value other).attributes.entry = true →
            (table.value other).attributes.entry = true) ∧
        ∀ before rest, passTwo = before ++ rest →
          ((inPassTwo passOne offset before).value other).attributes.entry = true →
            (table.value other).attributes.entry = true := by
  intro given table
  obtain ⟨known, fixed⟩ := settled
  have defined : given.isUndefined = false := (isUndefined_displace ..).trans known
  have own : given.isExternal = false := (isExternal_displace ..).trans internal
  have begun : Fixed given (((afterAll .one empty passOne).adjust offset).value key) := by
    rw [value_adjust]
    refine ⟨Value.same_refl _, ?_⟩
    unfold displace
    split
    · exact fixed
    · split <;> exact fixed
  have stays : Fixed given (table.value key) := begun.afterAll defined own guarded
  refine ⟨stays.same, stays.define_cases defined own, fun other => ⟨?_, ?_⟩⟩
  · rintro before rest rfl marked
    have atEnd := entry_afterAll .one marked rest
    rw [← afterAll_append] at atEnd
    exact entry_afterAll .two (entry_adjust offset atEnd) passTwo
  · rintro before rest rfl marked
    have atEnd := entry_afterAll .two marked rest
    rwa [inPassTwo, ← afterAll_append] at atEnd

/-- A label that is an entry point. -/
def labelPassOne : List Operation :=
  [.addQualifier "Q", .reference ⟨"Q", "L"⟩, .markEntry ⟨"Q", "L"⟩,
    .define ⟨"Q", "L"⟩ (.address .parcel 2 3 false) false]

/-- The label is defined where it has come to lie, and then twice more. -/
def labelPassTwo : List Operation :=
  [.define ⟨"Q", "L"⟩ (.address .parcel 2 43 false) false, .define ⟨"Q", "L"⟩ (.absolute 1) true,
    .define ⟨"Q", "L"⟩ (.address .parcel 2 3 false) false]

theorem fixed_inPassTwo_label :
    Settled ((afterAll .one empty labelPassOne).value ⟨"Q", "L"⟩) ∧
      ((inPassTwo labelPassOne (fun _ => 10) labelPassTwo).value ⟨"Q", "L"⟩).same
        (.address .parcel 2 43 false) ∧
      ((inPassTwo labelPassOne (fun _ => 10) labelPassTwo).value ⟨"Q", "L"⟩).attributes.entry = true := by
  have settled : Settled ((afterAll .one empty labelPassOne).value ⟨"Q", "L"⟩) := by decide
  have moved : (displace (fun _ => 10) ((afterAll .one empty labelPassOne).value ⟨"Q", "L"⟩)).same
      (.address .parcel 2 43 false) := by decide
  have guarded : ∀ before new rest, labelPassTwo = before ++ .define ⟨"Q", "L"⟩ new true :: rest →
      ((inPassTwo labelPassOne (fun _ => 10) before).value ⟨"Q", "L"⟩).attributes.definedInPassTwo =
        true := by
    intro before new rest split
    match before with
    | [] => nomatch split
    | [_] =>
      cases split
      decide
    | [_, _] => nomatch split
    | _ :: _ :: _ :: _ => simp [labelPassTwo] at split
  obtain ⟨same, -, entries⟩ := fixed_inPassTwo settled (by decide) guarded
  exact ⟨settled, Value.same_trans same moved, (entries _).1 labelPassOne [] rfl (by decide)⟩

/-- A constant of pass 1 is replaced in pass 2, by a redefinable definition that comes first. -/
theorem fixed_replaced :
    let passOne := [.define ⟨"", "A"⟩ (.absolute 1) false]
    let table := inPassTwo passOne (fun _ => 0) []
    Settled ((afterAll .one empty passOne).value ⟨"", "A"⟩) ∧
      ((afterAll .one empty passOne).value ⟨"", "A"⟩).isExternal = false ∧
      (table.value ⟨"", "A"⟩).same (.absolute 1) ∧
      (after .two table (.define ⟨"", "A"⟩ (.absolute 2) true)).value ⟨"", "A"⟩ =
        (Value.absolute 2).held true .two false ∧
      ¬((Value.absolute 2).held true .two false).same (.absolute 1) := by
  decide

end SymbolTable

end CrayAssembler
