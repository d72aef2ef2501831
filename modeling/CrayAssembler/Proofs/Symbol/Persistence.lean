import CrayAssembler.Proofs.Symbol.Table

namespace CrayAssembler

namespace Value

/-- The value without what belongs to the symbol that holds it. -/
def bare (value : Value) : Value :=
  { value with attributes := value.attributes.ofValue }

theorem same_iff {left right : Value} : left.same right ↔ left.bare = right.bare :=
  decide_eq_true_iff

theorem same_refl (value : Value) : value.same value :=
  same_iff.mpr rfl

theorem same_symm {left right : Value} (same : left.same right) : right.same left :=
  same_iff.mpr (same_iff.mp same).symm

theorem same_trans {first second third : Value} (one : first.same second)
    (two : second.same third) : first.same third :=
  same_iff.mpr ((same_iff.mp one).trans (same_iff.mp two))

theorem isUndefined_of_same {left right : Value} (same : left.same right) :
    left.isUndefined = right.isUndefined := by
  have bare := same_iff.mp same
  exact congrArg (·.attributes.undefined) bare

theorem isExternal_of_same {left right : Value} (same : left.same right) :
    left.isExternal = right.isExternal :=
  congrArg (·.attributes.external) (same_iff.mp same)

theorem isRelocatable_of_same {left right : Value} (same : left.same right) :
    left.isRelocatable = right.isRelocatable := by
  have bare := congrArg Value.isRelocatable (same_iff.mp same)
  exact bare

theorem addressKind_of_same {left right : Value} (same : left.same right) :
    left.addressKind = right.addressKind := by
  have bare := congrArg Value.addressKind (same_iff.mp same)
  exact bare

@[simp] theorem addressKind_withAddressKind (value : Value) (kind : AddressKind) :
    (value.withAddressKind kind).addressKind = kind := by
  cases kind <;> rfl

/-- A value as a symbol holds it that was defined in a pass. -/
def held (value : Value) (redefinable : Bool) (pass : Pass) (entry : Bool) : Value :=
  { value with attributes := { value.attributes.ofValue with
      redefinable, definedInPassTwo := pass = .two, entry } }

theorem held_same (value : Value) (redefinable : Bool) (pass : Pass) (entry : Bool) :
    (value.held redefinable pass entry).same value :=
  same_iff.mpr rfl

end Value

namespace SymbolTable

theorem bare_displace (offset : SectionId → Nat) (value : Value) :
    (displace offset value).bare = displace offset value.bare := by
  unfold displace
  by_cases fixed : (value.isUndefined || value.isExternal || value.addressKind = .value) = true
  · rw [if_pos fixed]
    exact (if_pos fixed).symm
  · rw [if_neg fixed]
    refine Eq.trans ?_ (if_neg fixed).symm
    obtain ⟨kind, attributes, home, external, coefficient, numeric⟩ := value
    cases home <;> rfl

theorem displace_same {left right : Value} (offset : SectionId → Nat) (same : left.same right) :
    (displace offset left).same (displace offset right) := by
  rw [Value.same_iff, bare_displace, bare_displace, Value.same_iff.mp same]

theorem isUndefined_displace (offset : SectionId → Nat) (value : Value) :
    (displace offset value).isUndefined = value.isUndefined := by
  unfold displace
  split
  · rfl
  · split <;> rfl

theorem isExternal_displace (offset : SectionId → Nat) (value : Value) :
    (displace offset value).isExternal = value.isExternal := by
  unfold displace
  split
  · rfl
  · split <;> rfl

theorem isRelocatable_displace (offset : SectionId → Nat) (value : Value) :
    (displace offset value).isRelocatable = value.isRelocatable := by
  unfold displace
  split
  · rfl
  · split <;> rfl

theorem addressKind_displace (offset : SectionId → Nat) (value : Value) :
    (displace offset value).addressKind = value.addressKind := by
  unfold displace
  split
  · rfl
  · split <;> rfl

/-- The value of a symbol, which is undefined when the symbol is not known. -/
def value (table : SymbolTable) (key : SymbolKey) : Value :=
  (table.get? key).getD .undefined

theorem value_insert (table : SymbolTable) (key other : SymbolKey) (new : Value) :
    (table.insert key new).value other = if key = other then new else table.value other := by
  unfold value
  rw [get?_insert]
  split <;> rfl

@[simp] theorem value_mention (table : SymbolTable) (key other : SymbolKey) :
    (table.mention key).value other = table.value other := by
  unfold value
  rw [get?_mention]
  split
  case isTrue same => rw [same, Option.getD_some]
  case isFalse => rfl

theorem value_markEntry (table : SymbolTable) (key other : SymbolKey) :
    ∃ entry, (table.markEntry key).value other = { table.value other with attributes :=
      { (table.value other).attributes with entry } } := by
  unfold markEntry
  rw [reference_eq]
  dsimp only
  rw [value_insert, value_mention]
  split
  case isTrue same =>
    subst same
    exact ⟨true, rfl⟩
  case isFalse => exact ⟨_, rfl⟩

theorem value_adjust (table : SymbolTable) (offset : SectionId → Nat) (key : SymbolKey) :
    (table.adjust offset).value key = displace offset (table.value key) := by
  unfold value
  rw [get?_adjust]
  cases table.get? key <;> rfl

/-- A symbol that becomes external was undefined, and no other one changes. -/
theorem value_makeExternal {table changed : SymbolTable} {key : SymbolKey} {index : Nat}
    (made : table.makeExternal key index = .ok changed) (other : SymbolKey) :
    changed.value other = table.value other ∨
      (table.value other).isUndefined ∧ (changed.value other).isExternal := by
  unfold makeExternal at made
  rw [reference_eq] at made
  dsimp only at made
  split at made
  · cases made
    exact .inl (value_mention ..)
  · split at made
    · nomatch made
    case isFalse defined =>
      cases made
      rw [value_insert]
      split
      case isTrue same =>
        subst same
        exact .inr ⟨by simpa [value] using defined, rfl⟩
      case isFalse => exact .inl (value_mention ..)

/-- A definition is refused exactly when it conflicts with the value that the symbol has; an unknown
symbol is as good as an undefined one. -/
theorem define_eq (table : SymbolTable) (key : SymbolKey) (new : Value) (redefinable : Bool)
    (pass : Pass) :
    ∃ entry, table.define key new redefinable pass =
      if conflicts (table.value key) new redefinable pass then .error .doubleDefinition
      else .ok (table.insert key (new.held redefinable pass entry)) := by
  unfold define value
  cases table.get? key with
  | none =>
    refine ⟨false, ?_⟩
    have agrees : conflicts .undefined new redefinable pass = false := by
      cases pass <;> cases redefinable <;> rfl
    rw [Option.getD_none, agrees]
    rfl
  | some old => exact ⟨old.attributes.entry, rfl⟩

/-- The value that a name stands for under the qualifier `current`. -/
def lookup (table : SymbolTable) (name : Name) (current : String) : Value :=
  table.value (table.resolve name current)

theorem isDefined_eq (table : SymbolTable) (key : SymbolKey) :
    table.isDefined key = !(table.value key).isUndefined := by
  unfold isDefined value
  cases table.get? key <;> rfl

/-- A mention makes no difference to what a name stands for, unless that is nothing: the name may then
be taken for the other one of two symbols without a value. -/
theorem lookup_mention (table : SymbolTable) (key : SymbolKey) (name : Name) (current : String) :
    (table.mention key).lookup name current = table.lookup name current ∨
      (table.lookup name current).isUndefined ∧
        (table.mention key).lookup name current = .undefined := by
  obtain ⟨qualifier, name⟩ := name
  cases qualifier with
  | some qualifier => exact .inl (value_mention ..)
  | none =>
    let here : SymbolKey := ⟨current, name⟩
    let outer : SymbolKey := ⟨"", name⟩
    have absent {other : SymbolKey} (unknown : table.get? other = none) :
        table.value other = .undefined := by rw [value, unknown, Option.getD_none]
    have unmentioned {other : SymbolKey} (unknown : ((table.mention key).get? other).isNone) :
        table.get? other = none := by
      rw [get?_mention] at unknown
      split at unknown
      · nomatch unknown
      · exact Option.isNone_iff_eq_none.mp unknown
    simp only [lookup, resolve, isDefined_eq, value_mention]
    split
    · exact .inl rfl
    case isFalse away =>
      by_cases outside : (table.value outer).isUndefined
      case neg => simp [outer, outside]
      have inside : (table.value here).isUndefined := by simp_all [here]
      simp only [outer, outside, Bool.not_true, Bool.false_or]
      split
      case isTrue after =>
        obtain ⟨unknown, -⟩ := Bool.and_eq_true_iff.mp after
        split
        · exact .inl rfl
        case isFalse before =>
          -- the other symbol was entered just now
          refine .inr ⟨inside, absent ?_⟩
          simpa [unmentioned unknown] using before
      case isFalse after =>
        split
        case isTrue before =>
          obtain ⟨unknown, -⟩ := Bool.and_eq_true_iff.mp before
          exact .inr ⟨outside, absent (Option.isNone_iff_eq_none.mp unknown)⟩
        · exact .inl rfl

/-- What statements do to a table. -/
inductive Change (pass : Pass) (table : SymbolTable) : SymbolTable → Prop
  | keep : Change pass table table
  | mention (key : SymbolKey) : Change pass table (table.mention key)
  | define {changed : SymbolTable} (key : SymbolKey) (new : Value) (redefinable : Bool)
      (made : table.define key new redefinable pass = .ok changed) : Change pass table changed
  | markEntry (key : SymbolKey) : Change pass table (table.markEntry key)
  | makeExternal {changed : SymbolTable} (key : SymbolKey) (index : Nat)
      (made : table.makeExternal key index = .ok changed) : Change pass table changed

/-- What a change does to one value. -/
theorem Change.cases {pass : Pass} {table changed : SymbolTable}
    (change : Change pass table changed) (key : SymbolKey) :
    (∃ entry, changed.value key = { table.value key with attributes :=
      { (table.value key).attributes with entry } }) ∨
    ((table.value key).isUndefined ∧ (changed.value key).isExternal) ∨
    ∃ new redefinable entry, conflicts (table.value key) new redefinable pass = false ∧
      changed.value key = new.held redefinable pass entry := by
  cases change with
  | keep => exact .inl ⟨_, rfl⟩
  | mention other => exact .inl ⟨_, value_mention ..⟩
  | markEntry other => exact .inl (value_markEntry ..)
  | makeExternal other index made =>
    rcases value_makeExternal made key with same | external
    · exact .inl ⟨_, same⟩
    · exact .inr (.inl external)
  | define other new redefinable made =>
    obtain ⟨entry, result⟩ := define_eq table other new redefinable pass
    rw [result] at made
    split at made
    · nomatch made
    case isFalse agrees =>
      cases made
      by_cases same : other = key
      · subst same
        refine .inr (.inr ⟨new, redefinable, entry, by simpa using agrees, ?_⟩)
        rw [value_insert, if_pos rfl]
      · rw [value_insert, if_neg same]
        exact .inl ⟨_, rfl⟩

/-- A symbol that has a value for good. -/
def Settled (value : Value) : Prop :=
  value.isUndefined = false ∧ value.attributes.redefinable = false

instance (value : Value) : Decidable (Settled value) :=
  inferInstanceAs (Decidable (_ ∧ _))

/-- In pass 1 no statement changes a value that is settled. -/
theorem Change.settled {table changed : SymbolTable} (change : Change .one table changed)
    {key : SymbolKey} (settled : Settled (table.value key)) :
    Settled (changed.value key) ∧ (changed.value key).same (table.value key) := by
  obtain ⟨defined, fixed⟩ := settled
  rcases change.cases key with ⟨entry, same⟩ | ⟨undefined, -⟩ | ⟨new, redefinable, entry, agrees, -⟩
  · rw [same]
    exact ⟨⟨defined, fixed⟩, Value.same_iff.mpr rfl⟩
  · rw [defined] at undefined
    nomatch undefined
  · rw [conflicts, defined, fixed] at agrees
    simp at agrees

/-- An external stays what it is, in both passes. -/
theorem Change.external {pass : Pass} {table changed : SymbolTable}
    (change : Change pass table changed) {key : SymbolKey} {given : Value}
    (defined : given.isUndefined = false) (external : given.isExternal)
    (same : (table.value key).same given) : (changed.value key).same given := by
  rcases change.cases key with ⟨entry, kept⟩ | ⟨undefined, -⟩ | ⟨new, redefinable, entry, agrees, -⟩
  · rw [kept]
    exact Value.same_trans (Value.same_iff.mpr rfl) same
  · rw [Value.isUndefined_of_same same, defined] at undefined
    nomatch undefined
  · have held : (table.value key).isExternal := by
      rw [Value.isExternal_of_same same]
      exact external
    unfold conflicts at agrees
    rw [held] at agrees
    nomatch agrees

/-- What is left in pass 2 of a value that a symbol had when the pass began. -/
def Carried (given now : Value) : Prop :=
  now.same given ∨ now.isExternal ∨
    now.attributes.definedInPassTwo ∧ (now.attributes.redefinable ∨ given.isUndefined)

/-- A definition in pass 2 does not stand: the symbol is external, or this pass has defined it, or
it had another value when the pass began. -/
def Refused (given now new : Value) (redefinable : Bool) : Prop :=
  now.isExternal ∨
    (now.attributes.definedInPassTwo ∧ ¬(redefinable ∧ now.attributes.redefinable)) ∨
    (¬now.attributes.definedInPassTwo ∧ ¬redefinable ∧ ¬given.isUndefined ∧ ¬given.same new)

instance (given now new : Value) (redefinable : Bool) :
    Decidable (Refused given now new redefinable) :=
  inferInstanceAs (Decidable (_ ∨ _ ∨ _))

theorem conflicts_two_iff {given now : Value} (carried : Carried given now) (new : Value)
    (redefinable : Bool) :
    conflicts now new redefinable .two ↔ Refused given now new redefinable := by
  unfold conflicts Refused
  by_cases external : now.isExternal = true
  · simp [external]
  by_cases again : now.attributes.definedInPassTwo = true
  · cases redefinable <;> simp [external, again]
  have unchanged : now.same given := by
    rcases carried with same | elsewhere | ⟨defined, -⟩
    · exact same
    · exact absurd elsewhere external
    · exact absurd defined again
  have same : now.same new = given.same new := by
    rw [Bool.eq_iff_iff]
    exact ⟨Value.same_trans (Value.same_symm unchanged), Value.same_trans unchanged⟩
  simp [external, again, Value.isUndefined_of_same unchanged, same, and_assoc]

theorem Change.carried {table changed : SymbolTable} (change : Change .two table changed)
    {key : SymbolKey} {given : Value} (carried : Carried given (table.value key)) :
    Carried given (changed.value key) := by
  rcases change.cases key with ⟨entry, same⟩ | ⟨-, external⟩ |
    ⟨new, redefinable, entry, agrees, result⟩
  · rw [same]
    exact carried.imp_left fun unchanged => Value.same_trans (Value.same_iff.mpr rfl) unchanged
  · exact .inr (.inl external)
  · have accepted : ¬Refused given (table.value key) new redefinable := by
      rw [← conflicts_two_iff carried, agrees]
      exact Bool.false_ne_true
    rw [result]
    have kept := Value.held_same new redefinable .two entry
    cases redefinable with
    | true => exact .inr (.inr ⟨rfl, .inl rfl⟩)
    | false =>
      by_cases undefined : given.isUndefined = true
      · exact .inr (.inr ⟨rfl, .inr undefined⟩)
      · by_cases equal : given.same new = true
        · exact .inl (Value.same_trans kept (Value.same_symm equal))
        · -- a definition of a symbol that has a value and differs from it is not accepted
          refine absurd ?_ accepted
          by_cases again : (table.value key).attributes.definedInPassTwo = true
          · exact .inr (.inl ⟨again, by simp⟩)
          · exact .inr (.inr ⟨again, by simp, undefined, equal⟩)

end SymbolTable

/-- A property of values that does not depend on what belongs to the symbols that hold them, nor on
numbers, and that every external has. -/
structure Value.Lasting (V : Value → Prop) : Prop where
  undefined : V .undefined
  external : ∀ index, V (.ofExternal index)
  same : ∀ {value other}, V value → other.bare = value.bare → V other
  moved : ∀ n {value}, V value → V { value with numeric := n }

namespace SymbolTable

/-- The values of all symbols have a property. -/
def Each (V : Value → Prop) (table : SymbolTable) : Prop :=
  ∀ key, V (table.value key)

section Each

variable {V : Value → Prop} (lasting : Value.Lasting V) {table changed : SymbolTable}
  (each : table.Each V)

include each

theorem Each.mention (key : SymbolKey) : (table.mention key).Each V := by
  intro other
  rw [value_mention]
  exact each other

include lasting

theorem Each.markEntry (key : SymbolKey) : (table.markEntry key).Each V := by
  intro other
  obtain ⟨entry, marked⟩ := value_markEntry table key other
  rw [marked]
  exact lasting.same (each other) rfl

theorem Each.define {key : SymbolKey} {new : Value} (given : V new) {redefinable : Bool} {pass : Pass}
    (made : table.define key new redefinable pass = .ok changed) : changed.Each V := by
  obtain ⟨entry, result⟩ := define_eq table key new redefinable pass
  rw [result] at made
  split at made
  · nomatch made
  · cases made
    intro other
    rw [value_insert]
    split
    · exact lasting.same given rfl
    · exact each other

theorem Each.makeExternal {key : SymbolKey} {index : Nat}
    (made : table.makeExternal key index = .ok changed) : changed.Each V := by
  unfold SymbolTable.makeExternal at made
  rw [reference_eq] at made
  dsimp only at made
  split at made
  · cases made
    exact each.mention key
  split at made
  · nomatch made
  · cases made
    intro other
    rw [value_insert]
    split
    · exact lasting.same (lasting.external index) rfl
    · exact each.mention key other

theorem Each.adjust (offset : SectionId → Nat) : (table.adjust offset).Each V := by
  intro key
  rw [value_adjust]
  unfold displace
  split
  · exact each key
  · split
    · exact each key
    · exact lasting.moved _ (each key)

end Each

end SymbolTable

end CrayAssembler
