import CrayAssembler.Proofs.Value.Displacement

namespace CrayAssembler

namespace Value

variable {id : SectionId} {words : Int} {value left right : Value}

/-- The value of a binary operator after the displacement of a section. -/
def Outcome.displaced (id : SectionId) (words : Int) (outcome : Outcome) : Outcome :=
  { outcome with value := outcome.value.displaced id words }

section Sum

/-- The base of a sum is contained as often as in both parts together, modulo the size of a word. -/
theorem weight_sumBase {subtract : Bool} {base : Base} {coefficient : Int64}
    (leftInteger : left.isFloat = false) (rightInteger : right.isFloat = false)
    (summed : sumBase left right subtract = .ok (base, coefficient)) :
    UInt64.ofInt (left.weight id) +
        (if subtract then -UInt64.ofInt (right.weight id) else UInt64.ofInt (right.weight id)) =
      if base = .inSection id then UInt64.ofInt coefficient.toInt else 0 := by
  have still {value : Value} {base : Base} (found : value.base = base)
      (other : base ≠ .inSection id) : value.weight id = 0 :=
    weight_of_base_ne fun inside => other (found.symm.trans inside)
  have none : UInt64.ofInt 0 = 0 := rfl
  unfold sumBase at summed
  dsimp only at summed
  split at summed
  case h_1 first second =>
    cases summed
    rw [still first nofun, still second nofun]
    cases subtract <;> rfl
  case h_2 first second =>
    cases summed
    rw [still first nofun, still second nofun]
    cases subtract <;> rfl
  case h_3 first second =>
    rw [still first nofun, still second nofun]
    cases subtract <;> cases summed
    rfl
  case h_4 first second =>
    cases summed
    rw [weight_inSection first leftInteger, still second nofun, none]
    simp only [Base.inSection.injEq, UInt64.neg_zero, ite_self, UInt64.add_zero]
    split <;> rfl
  case h_5 first second =>
    cases summed
    rw [still first nofun, weight_inSection second rightInteger, none]
    simp only [Base.inSection.injEq, UInt64.zero_add]
    cases subtract <;> simp only [Bool.false_eq_true, if_true, if_false, ofInt_toInt_neg] <;>
      split <;> rfl
  case h_6 first second =>
    split at summed
    case isTrue same =>
      cases summed
      subst same
      rw [weight_inSection first leftInteger, weight_inSection second rightInteger]
      simp only [Base.inSection.injEq, ofInt_toInt_add]
      cases subtract <;> simp only [Bool.false_eq_true, if_true, if_false, ofInt_toInt_neg] <;>
        split <;> rfl
    case isFalse => nomatch summed
  case h_7 => nomatch summed

/-- The kind of a sum. -/
def sumKind (left right : Value) : AddressKind :=
  if left.addressKind = .value then right.addressKind else left.addressKind

/-- The operands are addresses of different kinds. -/
def differ (left right : Value) : Bool :=
  left.addressKind ≠ .value && right.addressKind ≠ .value &&
    right.addressKind ≠ left.addressKind

theorem kinds_of_differ (alike : differ left right = false) :
    left.addressKind = .value ∨ right.addressKind = .value ∨
      right.addressKind = left.addressKind := by
  unfold differ at alike
  cases first : left.addressKind <;> cases second : right.addressKind <;> simp_all

/-- What contains the base of a section is an address, so it is of the kind of the sum. -/
theorem drift_left (measured : left.Measured) :
    left.drift id words = left.weight id * words * (sumKind left right).perWord := by
  by_cases relative : left.base = .inSection id
  · unfold drift sumKind
    rw [if_neg (measured.of_base relative)]
  · unfold drift
    rw [weight_of_base_ne relative, Int.zero_mul, Int.zero_mul, Int.zero_mul]

theorem drift_right (measured : right.Measured) (alike : differ left right = false) :
    right.drift id words = right.weight id * words * (sumKind left right).perWord := by
  by_cases relative : right.base = .inSection id
  · have address := measured.of_base relative
    unfold drift sumKind
    rcases kinds_of_differ alike with plain | plain | same
    · rw [if_pos plain]
    · exact absurd plain address
    · rw [← same, if_neg address]
  · unfold drift
    rw [weight_of_base_ne relative, Int.zero_mul, Int.zero_mul, Int.zero_mul]

/-- A sum with a number and a base. -/
def sumOf (left right : Value) (numeric : Word) : Base × Int64 → Value
  | (.inSection id, coefficient) =>
    if coefficient = 0 then absolute numeric
    else
      withAddressKind { attributes := { relocatable := true }, home := some id, coefficient, numeric }
        (sumKind left right)
  | (.external index, coefficient) =>
    withAddressKind
      { attributes := { external := true }, external := some index, coefficient, numeric }
      (sumKind left right)
  | (.absolute, _) =>
    let immobile := sumKind left right ≠ .value &&
      (left.attributes.immobile || right.attributes.immobile)
    let home := if immobile then left.home.or right.home else none
    withAddressKind { attributes := { immobile }, home, numeric } (sumKind left right)

@[simp] theorem numeric_sumOf (n : Word) (found : Base × Int64) :
    (sumOf left right n found).numeric = n := by
  obtain ⟨base, coefficient⟩ := found
  cases base with
  | absolute => rfl
  | external index => rfl
  | inSection id =>
    simp only [sumOf]
    split <;> rfl

/-- Only the number of a sum depends on the numbers of its parts. -/
theorem sumOf_withNumeric (n m : Word) (found : Base × Int64) :
    { sumOf left right n found with numeric := m } = sumOf left right m found := by
  obtain ⟨base, coefficient⟩ := found
  cases base with
  | absolute => rfl
  | external index => rfl
  | inSection id =>
    simp only [sumOf]
    split <;> rfl

theorem addAligned_eq (left right : Value) (subtract : Bool) :
    addAligned left right subtract =
      (sumBase left right subtract).map (sumOf left right
        (if subtract then left.numeric - right.numeric else left.numeric + right.numeric)) := by
  unfold addAligned
  dsimp only
  cases sumBase left right subtract with
  | error kind => rfl
  | ok found =>
    obtain ⟨base, coefficient⟩ := found
    cases base with
    | absolute => rfl
    | external index => rfl
    | inSection id =>
      show (if coefficient = 0 then _ else _) = Except.ok (if coefficient = 0 then _ else _)
      split <;> rfl

/-- A sum that contains the base of a section. -/
theorem base_address {home : SectionId} {coefficient : Int64} (contained : coefficient ≠ 0)
    (n : Word) :
    base { attributes := { relocatable := true }, home := some home, coefficient, numeric := n } =
      .inSection home := by
  have relocatable : isRelocatable
      { attributes := { relocatable := true }, home := some home, coefficient, numeric := n } =
        true := decide_eq_true contained
  unfold base
  rw [relocatable, if_pos contained]
  rfl

/-- A sum moves as far as its base says. -/
theorem drift_sumOf (n : Word) (base : Base) (coefficient : Int64) :
    UInt64.ofInt ((sumOf left right n (base, coefficient)).drift id words) =
      (if base = .inSection id then UInt64.ofInt coefficient.toInt else 0) *
        (UInt64.ofInt words * UInt64.ofInt (sumKind left right).perWord) := by
  have still {value : Value} (rigid : value.Rigid) :
      UInt64.ofInt (value.drift id words) =
        0 * (UInt64.ofInt words * UInt64.ofInt (sumKind left right).perWord) := by
    unfold drift
    rw [weight_of_base_ne (rigid.base id), Int.zero_mul, Int.zero_mul, UInt64.zero_mul]
    rfl
  cases base with
  | absolute => exact still rfl
  | external index => exact still rfl
  | inSection home =>
    simp only [sumOf]
    split
    case isTrue cancelled =>
      rw [cancelled, show UInt64.ofInt (0 : Int64).toInt = 0 from rfl, ite_self]
      exact still rfl
    case isFalse contained =>
      unfold drift
      rw [addressKind_withAddressKind, weight_withAddressKind,
        weight_inSection (base_address contained n) rfl, UInt64.ofInt_mul, UInt64.ofInt_mul,
        UInt64.mul_assoc]
      simp only [Base.inSection.injEq]
      split <;> rfl

theorem base_of_sumBase {subtract : Bool} {home : SectionId} {coefficient : Int64}
    (summed : sumBase left right subtract = .ok (.inSection home, coefficient)) :
    left.base = .inSection home ∨ right.base = .inSection home := by
  unfold sumBase at summed
  dsimp only at summed
  split at summed
  case h_1 => nomatch summed
  case h_2 => nomatch summed
  case h_3 => split at summed <;> nomatch summed
  case h_4 first _ =>
    cases summed
    exact .inl first
  case h_5 second =>
    cases summed
    exact .inr second
  case h_6 first _ =>
    split at summed
    · cases summed
      exact .inl first
    · nomatch summed
  case h_7 => nomatch summed

/-- A sum of measured parts is measured. -/
theorem measured_sumOf {subtract : Bool} {found : Base × Int64} (leftMeasured : left.Measured)
    (rightMeasured : right.Measured) (summed : sumBase left right subtract = .ok found) (n : Word) :
    (sumOf left right n found).Measured := by
  obtain ⟨base, coefficient⟩ := found
  cases base with
  | absolute => exact Rigid.measured rfl
  | external index => exact Rigid.measured rfl
  | inSection home =>
    simp only [sumOf]
    split
    case isTrue => exact Rigid.measured rfl
    case isFalse =>
      intro _
      rw [addressKind_withAddressKind]
      unfold sumKind
      rcases base_of_sumBase summed with first | second
      · rw [if_neg (leftMeasured.of_base first)]
        exact leftMeasured.of_base first
      · split
        case isTrue => exact rightMeasured.of_base second
        case isFalse address => exact address

/-- A sum or difference of operands that move. -/
theorem combine_add (n m first second : Word) (subtract : Bool) :
    (if subtract then (n + first) - (m + second) else (n + first) + (m + second)) =
      (if subtract then n - m else n + m) + (first + if subtract then -second else second) := by
  cases subtract <;> simp only [Bool.false_eq_true, if_true, if_false] <;> grind

/-- The parts of a sum move together as far as its base says. -/
theorem drift_sumBase {subtract : Bool} {base : Base} {coefficient : Int64}
    (alike : differ left right = false) (leftMeasured : left.Measured) (rightMeasured : right.Measured)
    (leftInteger : left.isFloat = false) (rightInteger : right.isFloat = false)
    (summed : sumBase left right subtract = .ok (base, coefficient)) :
    UInt64.ofInt (left.drift id words) + (if subtract then -UInt64.ofInt (right.drift id words)
        else UInt64.ofInt (right.drift id words)) =
      (if base = .inSection id then UInt64.ofInt coefficient.toInt else 0) *
        (UInt64.ofInt words * UInt64.ofInt (sumKind left right).perWord) := by
  rw [@drift_left id words left right leftMeasured, drift_right rightMeasured alike,
    ← weight_sumBase leftInteger rightInteger summed]
  simp only [UInt64.ofInt_mul]
  cases subtract <;> simp only [Bool.false_eq_true, if_true, if_false] <;> grind

theorem addAligned_displaced {subtract : Bool} {result : Value} (alike : differ left right = false)
    (leftMeasured : left.Measured) (rightMeasured : right.Measured)
    (leftInteger : left.isFloat = false) (rightInteger : right.isFloat = false)
    (added : addAligned left right subtract = .ok result) :
    addAligned (left.displaced id words) (right.displaced id words) subtract =
      .ok (result.displaced id words) ∧ result.Measured := by
  have same : sumBase (left.displaced id words) (right.displaced id words) subtract =
      sumBase left right subtract := rfl
  rw [addAligned_eq] at added ⊢
  rw [same]
  cases summed : sumBase left right subtract with
  | error kind => rw [summed] at added; nomatch added
  | ok found =>
    obtain ⟨base, coefficient⟩ := found
    rw [summed] at added
    cases added
    refine ⟨congrArg Except.ok (eq_displaced ?_ ?_),
      measured_sumOf leftMeasured rightMeasured summed _⟩
    · rw [sumOf_withNumeric, numeric_sumOf]
      rfl
    · rw [drift_sumOf, numeric_sumOf, numeric_sumOf, ← drift_sumBase alike leftMeasured
        rightMeasured leftInteger rightInteger summed]
      exact combine_add ..

end Sum

section Product

/-- A multiple of an address contains the base of its section that many times. -/
theorem weight_withCoefficient {home : SectionId} (relative : value.base = .inSection home)
    (integer : value.isFloat = false) (coefficient : Int64) (n : Word) :
    weight id { value with coefficient, numeric := n } =
      if home = id then coefficient.toInt else 0 := by
  by_cases contained : coefficient = 0
  · unfold weight
    rw [contained, show (0 : Int64).toInt = 0 from rfl, ite_self, ite_self]
  · have original : value.coefficient ≠ 0 := by
      have relocatable := isRelocatable_of_base relative
      unfold isRelocatable at relocatable
      simp only [Bool.and_eq_true, decide_eq_true_eq] at relocatable
      exact relocatable.2
    have same : base { value with coefficient, numeric := n } = value.base :=
      base_congr rfl rfl rfl (iff_of_false contained original)
    exact weight_inSection (same.trans relative) integer

theorem scaled_displaced {home : SectionId} (relative : value.base = .inSection home)
    (integer : value.isFloat = false) (factor : Word) :
    (value.displaced id words).scaled ((value.displaced id words).numeric * factor) factor
        value.addressKind =
      (value.scaled (value.numeric * factor) factor value.addressKind).displaced id words := by
  have weight : UInt64.ofInt
      ((value.scaled (value.numeric * factor) factor value.addressKind).weight id) =
        UInt64.ofInt (value.weight id) * factor := by
    unfold scaled
    rw [weight_withAddressKind, weight_withCoefficient relative integer,
      weight_inSection relative integer]
    split
    · rw [ofInt_toInt_mul, ofInt_signed]
    · exact (UInt64.zero_mul).symm
  have units : (value.scaled (value.numeric * factor) factor value.addressKind).addressKind =
      value.addressKind := addressKind_withAddressKind ..
  refine eq_displaced rfl ?_
  unfold drift
  rw [units, UInt64.ofInt_mul, UInt64.ofInt_mul, weight]
  show (value.numeric + UInt64.ofInt (value.weight id * words * _)) * factor =
    value.numeric * factor + _
  rw [UInt64.ofInt_mul, UInt64.ofInt_mul]
  grind

theorem productKind_left {kind other : AddressKind} (address : kind ≠ .value)
    (uniform : (productKind kind other).2 = false) : (productKind kind other).1 = kind := by
  revert address uniform
  cases kind <;> cases other <;> decide

theorem productKind_right {kind other : AddressKind} (address : other ≠ .value)
    (uniform : (productKind kind other).2 = false) : (productKind kind other).1 = other := by
  revert address uniform
  cases kind <;> cases other <;> decide

end Product

section Binary

/-- Operands that are relative to nothing do not move, and neither does what is computed with
them. -/
theorem unmoved (combine : Value → Value → Except ErrorKind Outcome) {outcome : Outcome}
    (absolute : left.isAbsolute = true ∧ right.isAbsolute = true) (rigid : outcome.value.Rigid)
    (computed : combine left right = .ok outcome) :
    combine (left.displaced id words) (right.displaced id words) =
      .ok (outcome.displaced id words) ∧ outcome.value.Measured := by
  rw [displaced_of_isAbsolute absolute.1, displaced_of_isAbsolute absolute.2, Outcome.displaced,
    rigid.displaced]
  exact ⟨computed, rigid.measured⟩

theorem multiply_left {home : SectionId} (first : left.base = .inSection home)
    (second : right.base = .absolute) :
    multiply left right =
      .ok ⟨left.scaled (left.numeric * right.numeric) right.numeric
        (productKind left.addressKind right.addressKind).1,
        (productKind left.addressKind right.addressKind).2⟩ := by
  unfold multiply
  rw [first, second]

theorem multiply_right {home : SectionId} (first : left.base = .absolute)
    (second : right.base = .inSection home) :
    multiply left right =
      .ok ⟨right.scaled (left.numeric * right.numeric) left.numeric
        (productKind left.addressKind right.addressKind).1,
        (productKind left.addressKind right.addressKind).2⟩ := by
  unfold multiply
  rw [first, second]

theorem measured_scaled {n factor : Word} {kind : AddressKind} (address : kind ≠ .value) :
    (value.scaled n factor kind).Measured := by
  intro _
  unfold scaled
  rw [addressKind_withAddressKind]
  exact address

theorem multiply_displaced {outcome : Outcome} (leftMeasured : left.Measured)
    (rightMeasured : right.Measured) (leftInteger : left.isFloat = false)
    (rightInteger : right.isFloat = false) (multiplied : multiply left right = .ok outcome)
    (uniform : outcome.mixedKinds = false) :
    multiply (left.displaced id words) (right.displaced id words) =
      .ok (outcome.displaced id words) ∧ outcome.value.Measured := by
  have computed := multiplied
  unfold multiply at computed
  dsimp only at computed
  split at computed
  case h_1 first second =>
    refine unmoved multiply ⟨decide_eq_true first, decide_eq_true second⟩ ?_ multiplied
    cases computed
    rfl
  case h_2 home first second =>
    have moved : (left.displaced id words).base = .inSection home := first
    have address := leftMeasured.of_base first
    rw [multiply_left first second] at multiplied
    cases multiplied
    rw [displaced_of_isAbsolute (decide_eq_true second), multiply_left moved second,
      addressKind_displaced, productKind_left address uniform, scaled_displaced first leftInteger]
    exact ⟨rfl, measured_scaled address⟩
  case h_3 home first second =>
    have moved : (right.displaced id words).base = .inSection home := second
    have address := rightMeasured.of_base second
    rw [multiply_right first second] at multiplied
    cases multiplied
    rw [displaced_of_isAbsolute (decide_eq_true first), multiply_right first moved,
      addressKind_displaced, productKind_right address uniform, UInt64.mul_comm left.numeric,
      UInt64.mul_comm left.numeric, scaled_displaced second rightInteger]
    exact ⟨rfl, measured_scaled address⟩
  case h_4 => nomatch computed

theorem isAbsolute_of_bits {n : Word} (read : value.bits = .ok n) : value.isAbsolute = true := by
  unfold bits at read
  split at read
  · nomatch read
  split at read
  case isTrue absolute => exact absolute
  case isFalse => nomatch read

theorem isAbsolute_of_logic {combine : Word → Word → Word} {outcome : Outcome}
    (combined : logic left right combine = .ok outcome) :
    left.isAbsolute = true ∧ right.isAbsolute = true := by
  unfold logic at combined
  split at combined
  · nomatch combined
  cases first : left.bits with
  | error kind => rw [first] at combined; nomatch combined
  | ok n =>
    cases second : right.bits with
    | error kind => rw [first, second] at combined; nomatch combined
    | ok m => exact ⟨isAbsolute_of_bits first, isAbsolute_of_bits second⟩

/-- The check for operands that are relative to nothing has passed. -/
theorem isAbsolute_of_check (passed : ¬(!left.isAbsolute || !right.isAbsolute) = true) :
    left.isAbsolute = true ∧ right.isAbsolute = true := by
  simpa using passed

theorem isAbsolute_of_divide {outcome : Outcome} (divided : divide left right = .ok outcome) :
    left.isAbsolute = true ∧ right.isAbsolute = true := by
  unfold divide at divided
  dsimp only at divided
  split at divided
  case isTrue => nomatch divided
  case isFalse passed => exact isAbsolute_of_check passed

theorem isAbsolute_of_floats {isQuotient : Bool} {outcome : Outcome}
    (multiplied : (multiplyFloats left right isQuotient).map .plain = .ok outcome) :
    left.isAbsolute = true ∧ right.isAbsolute = true := by
  unfold multiplyFloats at multiplied
  by_cases refused : (!left.isAbsolute || !right.isAbsolute) = true
  · rw [if_pos refused] at multiplied
    nomatch multiplied
  · exact isAbsolute_of_check refused

theorem add_integers (leftInteger : left.isFloat = false) (rightInteger : right.isFloat = false)
    (subtract : Bool) :
    add left right subtract =
      (addAligned left (if differ left right then right.convert left.addressKind else right)
        subtract).map (⟨·, differ left right⟩) := by
  unfold add
  rw [leftInteger, rightInteger]
  show (addAligned left (if differ left right then _ else right) subtract >>= _) = _
  generalize addAligned left _ subtract = sum
  cases sum <;> rfl

theorem mixedKinds_of_add {subtract : Bool} {outcome : Outcome}
    (leftInteger : left.isFloat = false) (rightInteger : right.isFloat = false)
    (added : add left right subtract = .ok outcome) :
    outcome.mixedKinds = differ left right := by
  rw [add_integers leftInteger rightInteger] at added
  generalize addAligned left _ subtract = sum at added
  cases sum <;> cases added
  rfl

theorem add_of_alike (alike : differ left right = false) (leftInteger : left.isFloat = false)
    (rightInteger : right.isFloat = false) (subtract : Bool) :
    add left right subtract = (addAligned left right subtract).map .plain := by
  rw [add_integers leftInteger rightInteger, alike]
  rfl

theorem isAbsolute_of_add {subtract : Bool} {outcome : Outcome}
    (float : (left.isFloat || right.isFloat) = true)
    (added : add left right subtract = .ok outcome) :
    (left.isAbsolute = true ∧ right.isAbsolute = true) ∧ outcome.value.Rigid := by
  unfold add at added
  rw [if_pos float] at added
  dsimp only at added
  split at added
  case isTrue => nomatch added
  case isFalse passed =>
    cases added
    exact ⟨isAbsolute_of_check passed, rigid_float _⟩

theorem add_displaced {subtract : Bool} {outcome : Outcome} (leftMeasured : left.Measured)
    (rightMeasured : right.Measured) (added : add left right subtract = .ok outcome)
    (uniform : outcome.mixedKinds = false) :
    add (left.displaced id words) (right.displaced id words) subtract =
      .ok (outcome.displaced id words) ∧ outcome.value.Measured := by
  by_cases float : (left.isFloat || right.isFloat) = true
  · obtain ⟨absolute, rigid⟩ := isAbsolute_of_add float added
    exact unmoved (add · · subtract) absolute rigid added
  · simp only [Bool.or_eq_true, not_or, Bool.not_eq_true] at float
    obtain ⟨leftInteger, rightInteger⟩ := float
    have alike := (mixedKinds_of_add leftInteger rightInteger added).symm.trans uniform
    have moved : differ (left.displaced id words) (right.displaced id words) = false := alike
    rw [add_of_alike alike leftInteger rightInteger] at added
    rw [add_of_alike moved leftInteger rightInteger]
    cases summed : addAligned left right subtract with
    | error kind => rw [summed] at added; nomatch added
    | ok result =>
      rw [summed] at added
      cases added
      obtain ⟨sum, measured⟩ :=
        addAligned_displaced alike leftMeasured rightMeasured leftInteger rightInteger summed
      rw [sum]
      exact ⟨rfl, measured⟩

theorem binary_displaced {op : BinaryOp} {outcome : Outcome} (leftMeasured : left.Measured)
    (rightMeasured : right.Measured) (computed : binary op left right = .ok outcome)
    (uniform : outcome.mixedKinds = false) :
    binary op (left.displaced id words) (right.displaced id words) =
      .ok (outcome.displaced id words) ∧ outcome.value.Measured := by
  unfold binary at computed ⊢
  rw [isUndefined_displaced, isUndefined_displaced]
  split at computed
  case isTrue missing =>
    cases computed
    rw [if_pos missing, Outcome.displaced, Outcome.plain, rigid_undefined.displaced]
    exact ⟨rfl, rigid_undefined.measured⟩
  case isFalse defined =>
    rw [if_neg defined]
    have logical {combine : Word → Word → Word} (combined : logic left right combine = .ok outcome) :
        logic (left.displaced id words) (right.displaced id words) combine =
          .ok (outcome.displaced id words) ∧ outcome.value.Measured :=
      unmoved (logic · · combine) (isAbsolute_of_logic combined) (rigid_logic combined) combined
    cases op with
    | add => exact add_displaced leftMeasured rightMeasured computed uniform
    | subtract => exact add_displaced leftMeasured rightMeasured computed uniform
    | multiply =>
      simp only [binaryDefined] at computed ⊢
      rw [isFloat_displaced, isFloat_displaced]
      split at computed
      case isTrue float =>
        rw [if_pos float]
        exact unmoved (fun left right => (multiplyFloats left right false).map .plain)
          (isAbsolute_of_floats computed) (rigid_floats computed) computed
      case isFalse integers =>
        rw [if_neg integers]
        simp only [Bool.or_eq_true, not_or, Bool.not_eq_true] at integers
        exact multiply_displaced leftMeasured rightMeasured integers.1 integers.2 computed uniform
    | divide =>
      simp only [binaryDefined] at computed ⊢
      rw [isFloat_displaced, isFloat_displaced]
      split at computed
      case isTrue float =>
        rw [if_pos float]
        exact unmoved (fun left right => (multiplyFloats left right true).map .plain)
          (isAbsolute_of_floats computed) (rigid_floats computed) computed
      case isFalse integers =>
        rw [if_neg integers]
        exact unmoved divide (isAbsolute_of_divide computed) (rigid_divide computed) computed
    | and => exact logical computed
    | or => exact logical computed
    | xor => exact logical computed
    | shiftLeft => exact logical computed
    | shiftRight => exact logical computed

end Binary

end Value

end CrayAssembler
