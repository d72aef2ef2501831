import CrayAssembler.Proofs.Value.Combination

namespace CrayAssembler

/-- How many address kinds are marked. -/
def Attributes.unitCount (attributes : Attributes) : Nat :=
  attributes.wordAddress.toNat + attributes.parcelAddress.toNat + attributes.byteAddress.toNat

namespace Value

/-- The fields of a value say the same of it. -/
structure WellFormed (value : Value) : Prop where
  /-- It counts in one unit at most. -/
  units : value.attributes.unitCount ≤ 1
  external_iff : value.attributes.external = true ↔ value.external.isSome = true
  /-- An external is no address in a section, and is contained once. -/
  external : value.attributes.external = true → value.home = none ∧ value.coefficient = 1
  relocatable : value.attributes.relocatable = true → value.home.isSome = true
  float : value.isFloat = true → value.home = none ∧ value.external = none

instance (value : Value) : Decidable value.WellFormed :=
  decidable_of_iff
    (value.attributes.unitCount ≤ 1 ∧
      (value.attributes.external = true ↔ value.external.isSome = true) ∧
      (value.attributes.external = true → value.home = none ∧ value.coefficient = 1) ∧
      (value.attributes.relocatable = true → value.home.isSome = true) ∧
      (value.isFloat = true → value.home = none ∧ value.external = none))
    ⟨fun ⟨units, iff, external, relocatable, float⟩ => ⟨units, iff, external, relocatable, float⟩,
      fun formed => ⟨formed.units, formed.external_iff, formed.external, formed.relocatable,
        formed.float⟩⟩

/-- What a unary operator makes of a defined value. -/
inductive Changed (value : Value) : Value → Prop
  | same : Changed value value
  | plain (n : Word) (absolute : value.base = .absolute) : Changed value (.absolute n)
  | float (x : Double) (floating : value.isFloat = true) : Changed value (.float x)
  | negated (integer : value.isFloat = false) (internal : value.isExternal = false) :
      Changed value { value with numeric := -value.numeric, coefficient := -value.coefficient }
  | converted (kind : AddressKind) : Changed value (value.convert kind)

/-- What a binary operator makes of defined values. The right part of a sum may be converted first. -/
inductive Combined (left right : Value) : Value → Prop
  | plain (n : Word) (kind : AddressKind) (leftAbsolute : left.base = .absolute)
      (rightAbsolute : right.base = .absolute) :
      Combined left right ((absolute n).withAddressKind kind)
  | float (x : Double) (leftAbsolute : left.base = .absolute)
      (rightAbsolute : right.base = .absolute) : Combined left right (.float x)
  | sum {aligned : Value} {subtract : Bool} {found : Base × Int64} (n : Word)
      (same : aligned = right ∨ ∃ kind, aligned = right.convert kind)
      (leftInteger : left.isFloat = false) (rightInteger : right.isFloat = false)
      (summed : sumBase left aligned subtract = .ok found) :
      Combined left right (sumOf left aligned n found)
  | scaledLeft {id : SectionId} (n factor : Word) (kind : AddressKind)
      (relative : left.base = .inSection id) (absolute : right.base = .absolute) :
      Combined left right (left.scaled n factor kind)
  | scaledRight {id : SectionId} (n factor : Word) (kind : AddressKind)
      (relative : right.base = .inSection id) (absolute : left.base = .absolute) :
      Combined left right (right.scaled n factor kind)

section Forms

variable {value left right result : Value} {outcome : Outcome}

theorem base_of_bits {n : Word} (known : value.bits = .ok n) : value.base = .absolute := by
  unfold bits at known
  split at known
  · nomatch known
  split at known
  case isTrue absolute => exact of_decide_eq_true absolute
  case isFalse => nomatch known

theorem base_of_absolute {α : Type} {kind : ErrorKind} {rest : Except ErrorKind α} {found : α}
    (computed : (if !left.isAbsolute || !right.isAbsolute then Except.error kind else rest) =
      .ok found) : left.base = .absolute ∧ right.base = .absolute ∧ rest = .ok found := by
  split at computed
  · nomatch computed
  case isFalse both =>
    simp only [Bool.or_eq_true, not_or, Bool.not_eq_true', Bool.not_eq_false] at both
    exact ⟨of_decide_eq_true both.1, of_decide_eq_true both.2, computed⟩

/-- A number that is computed from the one of an operand. -/
theorem changed_plain {f : Word → Word}
    (computed : (do return absolute (f (← value.bits))) = Except.ok result) :
    Changed value result := by
  cases bits : value.bits with
  | error kind => rw [bits] at computed; nomatch computed
  | ok n =>
    rw [bits] at computed
    cases computed
    exact .plain _ (base_of_bits bits)

theorem changed_mask {f : Nat → Word}
    (computed : (do return absolute (f (← maskWidth (← value.bits)))) = Except.ok result) :
    Changed value result := by
  cases bits : value.bits with
  | error kind => rw [bits] at computed; nomatch computed
  | ok n =>
    cases width : maskWidth n with
    | error kind =>
      rw [bits] at computed
      simp only [bind, Except.bind, width] at computed
      nomatch computed
    | ok count =>
      rw [bits] at computed
      simp only [bind, Except.bind, width] at computed
      cases computed
      exact .plain _ (base_of_bits bits)

theorem changed_of_unaryDefined {op : UnaryOp} (computed : unaryDefined op value = .ok result) :
    Changed value result := by
  cases op with
  | plus =>
    cases computed
    exact .same
  | minus =>
    simp only [unaryDefined, negate] at computed
    split at computed
    case isTrue floating =>
      cases computed
      exact .float _ floating
    case isFalse integer =>
      split at computed
      · cases computed
      case isFalse internal =>
        cases computed
        exact .negated (eq_false_of_ne_true integer) (eq_false_of_ne_true internal)
  | complement => exact changed_plain computed
  | maskLeft => exact changed_mask computed
  | maskRight => exact changed_mask computed
  | complementMaskLeft => exact changed_mask computed
  | complementMaskRight => exact changed_mask computed
  | parcelAddress =>
    cases computed
    exact .converted .parcel
  | wordAddress =>
    cases computed
    exact .converted .word

theorem combined_of_add {subtract : Bool} (added : add left right subtract = .ok outcome) :
    Combined left right outcome.value := by
  unfold add at added
  dsimp only at added
  split at added
  · obtain ⟨leftAbsolute, rightAbsolute, added⟩ := base_of_absolute added
    cases added
    exact .float _ leftAbsolute rightAbsolute
  case isFalse integers =>
    simp only [Bool.or_eq_true, not_or, Bool.not_eq_true] at integers
    have aligned {mixed : Bool} {kind : AddressKind} :
        (if mixed then right.convert kind else right) = right ∨
          ∃ kind', (if mixed then right.convert kind else right) = right.convert kind' := by
      cases mixed
      · exact .inl rfl
      · exact .inr ⟨kind, rfl⟩
    rw [addAligned_eq] at added
    cases summed : sumBase left _ subtract with
    | error kind => rw [summed] at added; nomatch added
    | ok found =>
      rw [summed] at added
      cases added
      exact .sum _ aligned integers.1 integers.2 summed

theorem combined_of_floats {isQuotient : Bool}
    (multiplied : (multiplyFloats left right isQuotient).map .plain = .ok outcome) :
    Combined left right outcome.value := by
  cases found : multiplyFloats left right isQuotient with
  | error kind => rw [found] at multiplied; nomatch multiplied
  | ok product =>
    rw [found] at multiplied
    cases multiplied
    unfold multiplyFloats at found
    cases isQuotient <;> simp only [Bool.false_eq_true, if_false, if_true] at found
    · obtain ⟨leftAbsolute, rightAbsolute, found⟩ := base_of_absolute found
      cases found
      exact .float _ leftAbsolute rightAbsolute
    · obtain ⟨leftAbsolute, rightAbsolute, found⟩ := base_of_absolute found
      split at found
      · nomatch found
      · cases found
        exact .float _ leftAbsolute rightAbsolute

theorem combined_of_multiply (multiplied : multiply left right = .ok outcome) :
    Combined left right outcome.value := by
  unfold multiply at multiplied
  dsimp only at multiplied
  split at multiplied
  case h_1 leftAbsolute rightAbsolute =>
    cases multiplied
    exact .plain _ _ leftAbsolute rightAbsolute
  case h_2 relative absolute =>
    cases multiplied
    exact .scaledLeft _ _ _ relative absolute
  case h_3 absolute relative =>
    cases multiplied
    exact .scaledRight _ _ _ relative absolute
  case h_4 => nomatch multiplied

theorem combined_of_divide (divided : divide left right = .ok outcome) :
    Combined left right outcome.value := by
  unfold divide at divided
  dsimp only at divided
  obtain ⟨leftAbsolute, rightAbsolute, divided⟩ := base_of_absolute divided
  split at divided
  · nomatch divided
  · cases divided
    exact .plain _ _ leftAbsolute rightAbsolute

theorem combined_of_logic {combine : Word → Word → Word}
    (computed : logic left right combine = .ok outcome) : Combined left right outcome.value := by
  unfold logic at computed
  split at computed
  · nomatch computed
  cases first : left.bits with
  | error kind => rw [first] at computed; nomatch computed
  | ok n =>
    cases second : right.bits with
    | error kind => rw [first, second] at computed; nomatch computed
    | ok m =>
      rw [first, second] at computed
      cases computed
      exact .plain _ .value (base_of_bits first) (base_of_bits second)

theorem combined_of_binaryDefined {op : BinaryOp}
    (computed : binaryDefined op left right = .ok outcome) : Combined left right outcome.value := by
  cases op with
  | add => exact combined_of_add computed
  | subtract => exact combined_of_add computed
  | multiply =>
    simp only [binaryDefined] at computed
    split at computed
    · exact combined_of_floats computed
    · exact combined_of_multiply computed
  | divide =>
    simp only [binaryDefined] at computed
    split at computed
    · exact combined_of_floats computed
    · exact combined_of_divide computed
  | and => exact combined_of_logic computed
  | or => exact combined_of_logic computed
  | xor => exact combined_of_logic computed
  | shiftLeft => exact combined_of_logic computed
  | shiftRight => exact combined_of_logic computed

/-- An undefined operand makes the result undefined; otherwise it has one of the forms. -/
theorem changed_of_unary {op : UnaryOp} (computed : unary op value = .ok result) :
    (value.isUndefined = true ∧ result = undefined) ∨
      (value.isUndefined = false ∧ Changed value result) := by
  unfold unary at computed
  split at computed
  case isTrue unknown =>
    cases computed
    exact .inl ⟨unknown, rfl⟩
  case isFalse defined =>
    exact .inr ⟨eq_false_of_ne_true defined, changed_of_unaryDefined computed⟩

theorem combined_of_binary {op : BinaryOp} (computed : binary op left right = .ok outcome) :
    ((left.isUndefined = true ∨ right.isUndefined = true) ∧ outcome.value = undefined) ∨
      ((left.isUndefined = false ∧ right.isUndefined = false) ∧
        Combined left right outcome.value) := by
  unfold binary at computed
  split at computed
  case isTrue unknown =>
    cases computed
    exact .inl ⟨(Bool.or_eq_true ..).mp unknown, rfl⟩
  case isFalse defined =>
    rw [Bool.or_eq_true, not_or, Bool.not_eq_true, Bool.not_eq_true] at defined
    exact .inr ⟨defined, combined_of_binaryDefined computed⟩

end Forms

section Undefined

variable {value left right result : Value} {outcome : Outcome}

theorem isUndefined_sumOf (n : Word) (found : Base × Int64) :
    (sumOf left right n found).isUndefined = false := by
  obtain ⟨base, coefficient⟩ := found
  cases base with
  | absolute => rfl
  | external index => rfl
  | inSection id =>
    simp only [sumOf]
    split <;> rfl

theorem Changed.isUndefined (changed : Changed value result) (defined : value.isUndefined = false) :
    result.isUndefined = false := by
  cases changed with
  | same => exact defined
  | plain n => rfl
  | float x => rfl
  | negated => exact defined
  | converted kind => exact defined

theorem Combined.isUndefined (combined : Combined left right result)
    (leftDefined : left.isUndefined = false) (rightDefined : right.isUndefined = false) :
    result.isUndefined = false := by
  cases combined with
  | plain n kind => rfl
  | float x => rfl
  | sum n => exact isUndefined_sumOf ..
  | scaledLeft => exact leftDefined
  | scaledRight => exact rightDefined

/-- The result of an operator is undefined if and only if an operand is. -/
theorem isUndefined_unary {op : UnaryOp} (computed : unary op value = .ok result) :
    result.isUndefined = value.isUndefined := by
  rcases changed_of_unary computed with ⟨unknown, rfl⟩ | ⟨defined, changed⟩
  · exact unknown.symm
  · exact (changed.isUndefined defined).trans defined.symm

theorem isUndefined_binary {op : BinaryOp} (computed : binary op left right = .ok outcome) :
    outcome.value.isUndefined = (left.isUndefined || right.isUndefined) := by
  rcases combined_of_binary computed with ⟨unknown, same⟩ | ⟨⟨first, second⟩, combined⟩
  · rw [same]
    exact ((Bool.or_eq_true ..).mpr unknown).symm
  · rw [combined.isUndefined first second, first, second]
    rfl

end Undefined

section WellFormed

variable {value left right result : Value} {outcome : Outcome}

/-- A value without an external. -/
theorem wellFormed_internal (units : value.attributes.unitCount ≤ 1) (external : value.external = none)
    (internal : value.attributes.external = false)
    (relocatable : value.attributes.relocatable = true → value.home.isSome = true)
    (float : value.isFloat = true → value.home = none) : value.WellFormed where
  units := units
  external_iff := by
    rw [internal, external]
    exact iff_of_false Bool.false_ne_true Bool.false_ne_true
  external marked := absurd (internal.symm.trans marked) Bool.false_ne_true
  relocatable := relocatable
  float is := ⟨float is, external⟩

/-- A value without a section and an external. -/
theorem wellFormed_plain (units : value.attributes.unitCount ≤ 1) (home : value.home = none)
    (external : value.external = none) (mobile : value.attributes.relocatable = false)
    (internal : value.attributes.external = false) : value.WellFormed :=
  wellFormed_internal units external internal
    (fun marked => absurd (mobile.symm.trans marked) Bool.false_ne_true) fun _ => home

theorem wellFormed_absolute (n : Word) : (absolute n).WellFormed :=
  wellFormed_plain (Nat.zero_le 1) rfl rfl rfl rfl

theorem wellFormed_float (x : Double) : (float x).WellFormed :=
  wellFormed_plain (Nat.zero_le 1) rfl rfl rfl rfl

theorem wellFormed_undefined : undefined.WellFormed :=
  wellFormed_plain (Nat.zero_le 1) rfl rfl rfl rfl

/-- Another number and other attributes of the symbol leave a value well formed, and so does another
coefficient if there is no external. -/
theorem WellFormed.of_same {other : Value} (formed : value.WellFormed) (kind : other.kind = value.kind)
    (units : other.attributes.unitCount ≤ 1)
    (mobile : other.attributes.relocatable = value.attributes.relocatable)
    (marked : other.attributes.external = value.attributes.external)
    (home : other.home = value.home) (external : other.external = value.external)
    (coefficient : value.attributes.external = true → other.coefficient = value.coefficient) :
    other.WellFormed where
  units := units
  external_iff := by
    rw [marked, external]
    exact formed.external_iff
  external is := by
    rw [marked] at is
    rw [home, coefficient is]
    exact formed.external is
  relocatable := by
    rw [mobile, home]
    exact formed.relocatable
  float := by
    unfold isFloat
    rw [kind, home, external]
    exact formed.float

/-- The unit of a value is set to one. -/
theorem units_withAddressKind (value : Value) (kind : AddressKind) :
    (value.withAddressKind kind).attributes.unitCount ≤ 1 := by
  cases kind <;> simp [Attributes.unitCount, Value.withAddressKind]

theorem WellFormed.withAddressKind (formed : value.WellFormed) (kind : AddressKind) :
    (value.withAddressKind kind).WellFormed :=
  formed.of_same rfl (units_withAddressKind value kind) rfl rfl rfl rfl fun _ => rfl

theorem WellFormed.withNumeric (formed : value.WellFormed) (n : Word) :
    { value with numeric := n }.WellFormed :=
  formed.of_same rfl formed.units rfl rfl rfl rfl fun _ => rfl

theorem WellFormed.convert (formed : value.WellFormed) (kind : AddressKind) :
    (value.convert kind).WellFormed :=
  (formed.withNumeric _).withAddressKind kind

theorem WellFormed.ofValue (formed : value.WellFormed) :
    { value with attributes := value.attributes.ofValue }.WellFormed :=
  formed.of_same rfl formed.units rfl rfl rfl rfl fun _ => rfl

/-- Without an external the coefficient is free. -/
theorem WellFormed.withCoefficient (formed : value.WellFormed)
    (internal : value.attributes.external = false) (n : Word) (coefficient : Int64) :
    { value with numeric := n, coefficient }.WellFormed :=
  formed.of_same rfl formed.units rfl rfl rfl rfl fun marked => absurd (internal.symm.trans marked) nofun

theorem wellFormed_address (kind : AddressKind) (id : SectionId) (n : Word) (relocatable : Bool) :
    (address kind id n relocatable).WellFormed :=
  wellFormed_internal (units_withAddressKind _ kind) rfl rfl (fun _ => rfl) nofun

theorem wellFormed_ofExternal (index : Nat) : (ofExternal index).WellFormed where
  units := Nat.zero_le 1
  external_iff := iff_of_true rfl rfl
  external _ := ⟨rfl, rfl⟩
  relocatable := nofun
  float := nofun

/-- What is relative to an external contains it once. -/
theorem WellFormed.coefficient_of_base (formed : value.WellFormed) {index : Nat}
    (relative : value.base = .external index) : value.coefficient = 1 := by
  unfold Value.base at relative
  split at relative
  case h_1 found =>
    split at found
    · exact (formed.external (formed.external_iff.mpr (Option.isSome_of_eq_some found))).2
    · nomatch found
  case h_2 =>
    split at relative <;> nomatch relative

/-- What is relative to a section has no external. -/
theorem WellFormed.internal_of_base (formed : value.WellFormed) {id : SectionId}
    (relative : value.base = .inSection id) : value.attributes.external = false := by
  refine eq_false_of_ne_true fun marked => ?_
  have home := (formed.external marked).1
  unfold Value.base at relative
  rw [home, ite_self] at relative
  split at relative <;> nomatch relative

theorem WellFormed.sumBase (leftFormed : left.WellFormed) (rightFormed : right.WellFormed)
    {subtract : Bool} {index : Nat} {coefficient : Int64}
    (summed : sumBase left right subtract = .ok (.external index, coefficient)) :
    coefficient = 1 := by
  unfold Value.sumBase at summed
  dsimp only at summed
  split at summed
  case h_2 relative _ =>
    cases summed
    exact leftFormed.coefficient_of_base relative
  case h_3 relative =>
    split at summed
    · nomatch summed
    · cases summed
      exact rightFormed.coefficient_of_base relative
  case h_6 => split at summed <;> nomatch summed
  all_goals nomatch summed

theorem wellFormed_sumOf {aligned : Value} {subtract : Bool} {found : Base × Int64}
    (leftFormed : left.WellFormed) (alignedFormed : aligned.WellFormed)
    (summed : Value.sumBase left aligned subtract = .ok found) (n : Word) :
    (sumOf left aligned n found).WellFormed := by
  obtain ⟨base, coefficient⟩ := found
  cases base with
  | absolute =>
    exact wellFormed_internal (units_withAddressKind ..) rfl rfl
      (fun marked => absurd marked Bool.false_ne_true) fun float => absurd float Bool.false_ne_true
  | external index =>
    obtain rfl := leftFormed.sumBase alignedFormed summed
    exact ((wellFormed_ofExternal index).withNumeric n).withAddressKind _
  | inSection id =>
    simp only [sumOf]
    split
    · exact wellFormed_absolute n
    · exact ((wellFormed_address .word id n true).withCoefficient rfl n coefficient).withAddressKind _

theorem WellFormed.changed (formed : value.WellFormed) (changed : Changed value result) :
    result.WellFormed := by
  cases changed with
  | same => exact formed
  | plain n => exact wellFormed_absolute n
  | float x => exact wellFormed_float x
  | negated integer internal => exact formed.withCoefficient internal _ _
  | converted kind => exact formed.convert kind

theorem WellFormed.combined (leftFormed : left.WellFormed) (rightFormed : right.WellFormed)
    (combined : Combined left right result) : result.WellFormed := by
  cases combined with
  | plain n kind => exact (wellFormed_absolute n).withAddressKind kind
  | float x => exact wellFormed_float x
  | sum n same _ _ summed =>
    refine wellFormed_sumOf leftFormed ?_ summed n
    rcases same with rfl | ⟨kind, rfl⟩
    · exact rightFormed
    · exact rightFormed.convert kind
  | scaledLeft n factor kind relative =>
    exact (leftFormed.withCoefficient (leftFormed.internal_of_base relative) _ _).withAddressKind kind
  | scaledRight n factor kind relative =>
    exact (rightFormed.withCoefficient (rightFormed.internal_of_base relative) _ _).withAddressKind kind

theorem WellFormed.unary (op : UnaryOp) (formed : value.WellFormed)
    (computed : Value.unary op value = .ok result) : result.WellFormed := by
  rcases changed_of_unary computed with ⟨_, rfl⟩ | ⟨_, changed⟩
  · exact wellFormed_undefined
  · exact formed.changed changed

theorem WellFormed.binary (op : BinaryOp) (leftFormed : left.WellFormed)
    (rightFormed : right.WellFormed) (computed : Value.binary op left right = .ok outcome) :
    outcome.value.WellFormed := by
  rcases combined_of_binary computed with ⟨_, same⟩ | ⟨_, combined⟩
  · rw [same]
    exact wellFormed_undefined
  · exact leftFormed.combined rightFormed combined

end WellFormed

section External

variable {value left right result : Value} {outcome : Outcome} {index : Nat}

/-- What is marked as an external is relative to one. -/
theorem WellFormed.base_of_isExternal (formed : value.WellFormed)
    (external : value.isExternal = true) : ∃ index, value.base = .external index := by
  obtain ⟨index, known⟩ := Option.isSome_iff_exists.mp (formed.external_iff.mp external)
  have once : value.coefficient ≠ 0 := by
    rw [(formed.external external).2]
    decide
  refine ⟨index, ?_⟩
  unfold base
  rw [if_pos once, known]

theorem Changed.isExternal (changed : Changed value result) (formed : value.WellFormed)
    (external : value.isExternal = true) : result.isExternal = true := by
  obtain ⟨index, relative⟩ := formed.base_of_isExternal external
  cases changed with
  | same => exact external
  | plain n absolute => nomatch relative.symm.trans absolute
  | float x floating =>
    have named := formed.external_iff.mp external
    rw [(formed.float floating).2] at named
    nomatch named
  | negated _ internal => nomatch internal.symm.trans external
  | converted kind => exact external

/-- A sum is relative to an external if one of its parts is. -/
theorem isExternal_sumOf {subtract : Bool} {found : Base × Int64}
    (relative : left.base = .external index ∨ right.base = .external index)
    (summed : sumBase left right subtract = .ok found) (n : Word) :
    (sumOf left right n found).isExternal = true := by
  unfold sumBase at summed
  dsimp only at summed
  rcases relative with relative | relative
  · rw [relative] at summed
    split at summed
    case h_2 =>
      cases summed
      rfl
    all_goals simp_all
  · rw [relative] at summed
    split at summed
    case h_3 =>
      split at summed
      · nomatch summed
      · cases summed
        rfl
    all_goals simp_all

theorem Combined.isExternal (combined : Combined left right result)
    (relative : left.base = .external index ∨ right.base = .external index) :
    result.isExternal = true := by
  have mixed : ¬ (left.base = .absolute ∧ right.base = .absolute) := by
    rintro ⟨first, second⟩
    rcases relative with relative | relative
    · nomatch relative.symm.trans first
    · nomatch relative.symm.trans second
  cases combined with
  | plain n kind first second => exact absurd ⟨first, second⟩ mixed
  | float x first second => exact absurd ⟨first, second⟩ mixed
  | sum n same _ _ summed =>
    refine isExternal_sumOf (relative.imp_right fun relative => ?_) summed n
    rcases same with rfl | ⟨kind, rfl⟩
    · exact relative
    · exact relative
  | scaledLeft n factor kind inside absolute =>
    rcases relative with relative | relative
    · nomatch relative.symm.trans inside
    · nomatch relative.symm.trans absolute
  | scaledRight n factor kind inside absolute =>
    rcases relative with relative | relative
    · nomatch relative.symm.trans absolute
    · nomatch relative.symm.trans inside

/-- What is computed from an external is one. -/
theorem isExternal_unary {op : UnaryOp} (computed : unary op value = .ok result)
    (defined : value.isUndefined = false) (formed : value.WellFormed)
    (external : value.isExternal = true) : result.isExternal = true := by
  rcases changed_of_unary computed with ⟨unknown, -⟩ | ⟨-, changed⟩
  · nomatch defined.symm.trans unknown
  · exact changed.isExternal formed external

theorem isExternal_binary {op : BinaryOp} (computed : binary op left right = .ok outcome)
    (defined : outcome.value.isUndefined = false) (leftFormed : left.WellFormed)
    (rightFormed : right.WellFormed) (external : left.isExternal = true ∨ right.isExternal = true) :
    outcome.value.isExternal = true := by
  rcases combined_of_binary computed with ⟨-, same⟩ | ⟨-, combined⟩
  · rw [same] at defined
    nomatch defined
  · rcases external with external | external
    · obtain ⟨index, relative⟩ := leftFormed.base_of_isExternal external
      exact combined.isExternal (.inl relative)
    · obtain ⟨index, relative⟩ := rightFormed.base_of_isExternal external
      exact combined.isExternal (.inr relative)

end External

/-- A well-formed value that is not both external and undefined. -/
structure Proper (value : Value) : Prop extends value.WellFormed where
  defined : value.isExternal = true → value.isUndefined = false

section Proper

variable {value left right result other : Value} {outcome : Outcome}

theorem WellFormed.proper_of_internal (formed : value.WellFormed) (internal : value.isExternal = false) :
    value.Proper :=
  ⟨formed, fun external => nomatch internal.symm.trans external⟩

theorem WellFormed.proper_of_defined (formed : value.WellFormed) (defined : value.isUndefined = false) :
    value.Proper :=
  ⟨formed, fun _ => defined⟩

/-- Another number and another unit leave a value proper. -/
theorem Proper.of_same (proper : value.Proper) (formed : other.WellFormed)
    (external : other.isExternal = value.isExternal)
    (undefined : other.isUndefined = value.isUndefined) : other.Proper :=
  ⟨formed, fun marked => undefined.trans (proper.defined (external.symm.trans marked))⟩

theorem proper_undefined : undefined.Proper :=
  wellFormed_undefined.proper_of_internal rfl

theorem Proper.unary (op : UnaryOp) (proper : value.Proper)
    (computed : Value.unary op value = .ok result) : result.Proper := by
  rcases changed_of_unary computed with ⟨_, rfl⟩ | ⟨defined, changed⟩
  · exact proper_undefined
  · exact (proper.toWellFormed.changed changed).proper_of_defined (changed.isUndefined defined)

theorem Proper.binary (op : BinaryOp) (leftProper : left.Proper) (rightProper : right.Proper)
    (computed : Value.binary op left right = .ok outcome) : outcome.value.Proper := by
  rcases combined_of_binary computed with ⟨_, same⟩ | ⟨defined, combined⟩
  · rw [same]
    exact proper_undefined
  · exact (leftProper.toWellFormed.combined rightProper.toWellFormed combined).proper_of_defined
      (combined.isUndefined defined.1 defined.2)

end Proper

end Value

end CrayAssembler
