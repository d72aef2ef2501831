import CrayAssembler.Proofs.Value.Rigid

namespace CrayAssembler

/-- The kind of address that a prefix asks for. -/
def UnaryOp.target? : UnaryOp → Option AddressKind
  | .parcelAddress => some .parcel
  | .wordAddress => some .word
  | _ => none

namespace Value

variable {id : SectionId} {words : Int} {value left right : Value}

/-- How often a value contains the base of a section. What is relative to something else does not
contain it, and no floating-point number does. -/
def weight (id : SectionId) (value : Value) : Int :=
  if value.base = .inSection id ∧ value.isFloat = false then value.coefficient.toInt else 0

/-- How far a value moves, in units of its kind, with a section that is displaced by a number of
words. -/
def drift (id : SectionId) (words : Int) (value : Value) : Int :=
  value.weight id * words * value.addressKind.perWord

/-- A value after the displacement of a section. -/
def displaced (id : SectionId) (words : Int) (value : Value) : Value :=
  { value with numeric := value.numeric + UInt64.ofInt (value.drift id words) }

/-- A relocatable address counts in some unit. -/
def Measured (value : Value) : Prop :=
  value.isRelocatable = true → value.addressKind ≠ .value

/-- A prefix that narrows an address to a larger unit finds it, after the displacement, still
within a word. -/
def Unwrapped (id : SectionId) (words : Int) (op : UnaryOp) (value : Value) : Prop :=
  ∀ kind ∈ op.target?, kind.perWord < value.addressKind.perWord →
    0 ≤ value.numeric.toNat + value.drift id words ∧
      value.numeric.toNat + value.drift id words < UInt64.size

section Word

theorem toNat_ofInt (n : Int) : ((UInt64.ofInt n).toNat : Int) = n % UInt64.size := by
  have low : 0 ≤ n % 2 ^ 64 := Int.emod_nonneg n (by decide)
  have high : n % 2 ^ 64 < 2 ^ 64 := Int.emod_lt_of_pos n (by decide)
  rw [UInt64.ofInt, UInt64.toNat_ofNat']
  simp only [UInt64.size]
  omega

theorem ofInt_natCast (n : Nat) : UInt64.ofInt n = UInt64.ofNat n := by
  apply UInt64.toNat_inj.mp
  apply Int.ofNat_inj.mp
  rw [toNat_ofInt, UInt64.toNat_ofNat', Int.natCast_emod]

theorem ofInt_bmod (n : Int) : UInt64.ofInt (n.bmod UInt64.size) = UInt64.ofInt n := by
  apply UInt64.toNat_inj.mp
  apply Int.ofNat_inj.mp
  rw [toNat_ofInt, toNat_ofInt, Int.bmod_emod]

theorem ofInt_signed (n : Word) : UInt64.ofInt n.toInt64.toInt = n := by
  have signed : n.toInt64.toInt = Int.bmod n.toNat UInt64.size := by
    rw [← Int64.toInt_toBitVec, UInt64.toBitVec_toInt64, BitVec.toInt_eq_toNat_bmod]
    rfl
  rw [signed, ofInt_bmod, ofInt_natCast, UInt64.ofNat_toNat]

theorem neg_eq_zero {n : Int64} : -n = 0 ↔ n = 0 :=
  ⟨fun h => by grind, fun h => by grind⟩

theorem ofInt_toInt_neg (n : Int64) : UInt64.ofInt (-n).toInt = -UInt64.ofInt n.toInt := by
  rw [Int64.toInt_neg, ← UInt64.ofInt_neg]
  exact ofInt_bmod _

theorem ofInt_toInt_add (n m : Int64) :
    UInt64.ofInt (n + m).toInt = UInt64.ofInt n.toInt + UInt64.ofInt m.toInt := by
  rw [Int64.toInt_add, ← UInt64.ofInt_add]
  exact ofInt_bmod _

theorem ofInt_toInt_mul (n m : Int64) :
    UInt64.ofInt (n * m).toInt = UInt64.ofInt n.toInt * UInt64.ofInt m.toInt := by
  rw [Int64.toInt_mul, ← UInt64.ofInt_mul]
  exact ofInt_bmod _

/-- An offset that does not lead out of a word is added as to a number. -/
theorem toNat_add_ofInt {n : Word} {offset : Int} (low : 0 ≤ n.toNat + offset)
    (high : n.toNat + offset < UInt64.size) :
    ((n + UInt64.ofInt offset).toNat : Int) = n.toNat + offset := by
  have read := toNat_ofInt offset
  rw [UInt64.toNat_add]
  simp only [UInt64.size] at read high
  omega

/-- What moves by a multiple of a divisor has its quotient moved. -/
theorem add_ofInt_div {n : Word} {divisor : Nat} {offset : Int} (positive : 0 < divisor)
    (small : divisor < UInt64.size) (low : 0 ≤ n.toNat + offset * divisor)
    (high : n.toNat + offset * divisor < UInt64.size) :
    (n + UInt64.ofInt (offset * divisor)) / UInt64.ofNat divisor =
      n / UInt64.ofNat divisor + UInt64.ofInt offset := by
  have divided (m : Word) :
      ((m / UInt64.ofNat divisor).toNat : Int) = (m.toNat : Int) / (divisor : Int) := by
    rw [UInt64.toNat_div, UInt64.toNat_ofNat_of_lt' small, Int.natCast_ediv]
  have quotient : (n.toNat + offset * divisor) / (divisor : Int) = n.toNat / divisor + offset :=
    Int.add_mul_ediv_right _ _ (by omega)
  have least : 0 ≤ (n.toNat + offset * divisor) / (divisor : Int) :=
    Int.ediv_nonneg low (by omega)
  have greatest : (n.toNat + offset * divisor) / (divisor : Int) < UInt64.size :=
    Int.lt_of_le_of_lt (Int.ediv_le_self _ low) high
  rw [quotient, ← divided] at least greatest
  apply UInt64.toNat_inj.mp
  apply Int.ofNat_inj.mp
  rw [toNat_add_ofInt least greatest, divided, divided, toNat_add_ofInt low high, quotient]

end Word

section Parts

@[simp] theorem addressKind_displaced :
    (value.displaced id words).addressKind = value.addressKind := rfl

@[simp] theorem isFloat_displaced : (value.displaced id words).isFloat = value.isFloat := rfl

@[simp] theorem isAbsolute_displaced :
    (value.displaced id words).isAbsolute = value.isAbsolute := rfl

@[simp] theorem isUndefined_displaced :
    (value.displaced id words).isUndefined = value.isUndefined := rfl

@[simp] theorem weight_withAddressKind (kind : AddressKind) :
    (value.withAddressKind kind).weight id = value.weight id := rfl

theorem isRelocatable_of_base (relative : value.base = .inSection id) :
    value.isRelocatable = true := by
  unfold base at relative
  split at relative
  · nomatch relative
  · split at relative
    case h_1 home found =>
      split at found
      case isTrue relocatable => exact relocatable
      case isFalse => nomatch found
    case h_2 => nomatch relative

theorem Measured.of_base (measured : value.Measured) (relative : value.base = .inSection id) :
    value.addressKind ≠ .value :=
  measured (isRelocatable_of_base relative)

theorem weight_of_base (relative : value.base = .inSection id) (integer : value.isFloat = false) :
    value.weight id = value.coefficient.toInt :=
  if_pos ⟨relative, integer⟩

theorem weight_inSection {home : SectionId} (relative : value.base = .inSection home)
    (integer : value.isFloat = false) :
    value.weight id = if home = id then value.coefficient.toInt else 0 := by
  unfold weight
  rw [relative, integer]
  simp only [Base.inSection.injEq, and_true]

theorem weight_of_base_ne (elsewhere : value.base ≠ .inSection id) : value.weight id = 0 :=
  if_neg fun both => elsewhere both.1

theorem displaced_of_weight (still : value.weight id = 0) : value.displaced id words = value := by
  unfold displaced drift
  rw [still, Int.zero_mul, Int.zero_mul, show UInt64.ofInt 0 = 0 from rfl, UInt64.add_zero]

theorem displaced_of_isAbsolute (absolute : value.isAbsolute = true) :
    value.displaced id words = value := by
  refine displaced_of_weight (weight_of_base_ne fun relative => ?_)
  unfold isAbsolute at absolute
  rw [relative] at absolute
  nomatch absolute

theorem displaced_of_isFloat (float : value.isFloat = true) :
    value.displaced id words = value := by
  refine displaced_of_weight (if_neg fun both => ?_)
  rw [float] at both
  nomatch both.2

theorem Rigid.displaced (rigid : value.Rigid) : value.displaced id words = value :=
  displaced_of_weight (weight_of_base_ne (rigid.base id))

theorem Rigid.measured (rigid : value.Rigid) : value.Measured := by
  intro relocatable
  rw [rigid.isRelocatable] at relocatable
  nomatch relocatable

/-- Only the number of a value moves. -/
theorem eq_displaced {moved : Value} (rest : { moved with numeric := value.numeric } = value)
    (number : moved.numeric = value.numeric + UInt64.ofInt (value.drift id words)) :
    moved = value.displaced id words := by
  unfold displaced
  rw [← number]
  generalize value.numeric = n at rest
  rw [← rest]

end Parts

section Unary

/-- What a value is relative to does not depend on its number or unit, nor on how often the base is
contained as long as it is. -/
theorem base_congr {other : Value} (external : other.external = value.external)
    (home : other.home = value.home)
    (relocatable : other.attributes.relocatable = value.attributes.relocatable)
    (contained : other.coefficient = 0 ↔ value.coefficient = 0) : other.base = value.base := by
  unfold base isRelocatable
  simp only [external, home, relocatable, ne_eq, contained]

theorem weight_opposite (n : Word) :
    UInt64.ofInt (weight id { value with numeric := n, coefficient := -value.coefficient }) =
      -UInt64.ofInt (value.weight id) := by
  have base : base { value with numeric := n, coefficient := -value.coefficient } = value.base :=
    base_congr rfl rfl rfl neg_eq_zero
  by_cases contained : value.base = .inSection id ∧ value.isFloat = false
  · rw [weight_of_base contained.1 contained.2, ← ofInt_toInt_neg]
    exact congrArg UInt64.ofInt (weight_of_base (base.trans contained.1) contained.2)
  · unfold weight
    rw [base, if_neg contained]
    exact congrArg UInt64.ofInt (if_neg contained)

theorem negate_displaced {result : Value} (negated : value.negate = .ok result) :
    (value.displaced id words).negate = .ok (result.displaced id words) := by
  unfold negate at negated
  split at negated
  case isTrue float =>
    cases negated
    rw [displaced_of_isFloat float, displaced_of_isFloat rfl, negate, if_pos float]
  case isFalse integer =>
    split at negated
    case isTrue => nomatch negated
    case isFalse inner =>
      cases negated
      have plain : ¬(value.displaced id words).isExternal := inner
      rw [negate, isFloat_displaced, if_neg integer, if_neg plain]
      refine congrArg Except.ok (eq_displaced rfl ?_)
      have opposite : UInt64.ofInt (drift id words
          { value with numeric := -value.numeric, coefficient := -value.coefficient }) =
            -UInt64.ofInt (value.drift id words) := by
        unfold drift
        rw [UInt64.ofInt_mul, UInt64.ofInt_mul, weight_opposite, UInt64.ofInt_mul, UInt64.ofInt_mul,
          UInt64.neg_mul, UInt64.neg_mul]
        rfl
      rw [opposite, ← UInt64.sub_eq_add_neg, ← UInt64.neg_add]
      rfl

theorem bits_displaced : (value.displaced id words).bits = value.bits := by
  unfold bits
  rw [isFloat_displaced, isAbsolute_displaced]
  split
  · rfl
  split
  case isTrue absolute => rw [displaced_of_isAbsolute absolute]
  case isFalse => rfl

/-- The number of an address, in units of another kind. -/
def rescaled (old kind : AddressKind) (n : Word) : Word :=
  if old = .value || kind = .value then n
  else if old.perWord < kind.perWord then n * UInt64.ofNat (kind.perWord / old.perWord)
  else n / UInt64.ofNat (old.perWord / kind.perWord)

theorem convert_eq (kind : AddressKind) :
    value.convert kind =
      { value with numeric := rescaled value.addressKind kind value.numeric }.withAddressKind
        kind := rfl

/-- The number of an address that moves by some words, in units of another kind. -/
theorem rescaled_add {old kind : AddressKind} {n : Word} {travel : Int}
    (first : old ≠ .value) (second : kind ≠ .value)
    (unwrapped : kind.perWord < old.perWord →
      0 ≤ n.toNat + travel * old.perWord ∧ n.toNat + travel * old.perWord < UInt64.size) :
    rescaled old kind (n + UInt64.ofInt (travel * old.perWord)) =
      rescaled old kind n + UInt64.ofInt (travel * kind.perWord) := by
  have addresses : ¬(old = .value || kind = .value) := by simp [first, second]
  unfold rescaled
  rw [if_neg addresses, if_neg addresses]
  split
  case isTrue finer =>
    have units : old.perWord * (kind.perWord / old.perWord) = kind.perWord := by
      revert first second finer
      cases old <;> cases kind <;> decide
    rw [UInt64.add_mul, ← ofInt_natCast, ← UInt64.ofInt_mul, Int.mul_assoc, ← Int.natCast_mul,
      units]
  case isFalse coarser =>
    have units : kind.perWord * (old.perWord / kind.perWord) = old.perWord := by
      revert first second coarser
      cases old <;> cases kind <;> decide
    by_cases same : old.perWord = kind.perWord
    · rw [same, Nat.div_self (by cases kind <;> decide)]
      show (_ + _) / 1 = _ / 1 + _
      rw [UInt64.div_one, UInt64.div_one]
    · obtain ⟨low, high⟩ := unwrapped (by omega)
      rw [← units, Int.natCast_mul, ← Int.mul_assoc] at low high
      have divided := add_ofInt_div (Nat.div_pos (by omega) (by cases kind <;> decide))
        (by cases old <;> cases kind <;> decide) low high
      rw [Int.mul_assoc, ← Int.natCast_mul, units] at divided
      exact divided

theorem convert_displaced {kind : AddressKind} (unit : kind ≠ .value) (measured : value.Measured)
    (unwrapped : kind.perWord < value.addressKind.perWord →
      0 ≤ value.numeric.toNat + value.drift id words ∧
        value.numeric.toNat + value.drift id words < UInt64.size) :
    (value.displaced id words).convert kind = (value.convert kind).displaced id words := by
  by_cases moves : value.base = .inSection id
  · refine eq_displaced rfl ?_
    have after : (value.convert kind).drift id words = value.weight id * words * kind.perWord := by
      unfold drift
      rw [convert_eq, addressKind_withAddressKind]
      rfl
    rw [after]
    show rescaled value.addressKind kind (value.numeric + UInt64.ofInt (value.drift id words)) = _
    exact rescaled_add (measured.of_base moves) unit unwrapped
  · rw [displaced_of_weight (weight_of_base_ne moves)]
    have still : (value.convert kind).weight id = 0 := weight_of_base_ne moves
    exact (displaced_of_weight still).symm

theorem Measured.negate (measured : value.Measured) {result : Value}
    (negated : value.negate = .ok result) : result.Measured := by
  unfold Value.negate at negated
  split at negated
  · cases negated
    exact (rigid_float _).measured
  split at negated
  · nomatch negated
  · cases negated
    intro relocatable
    unfold isRelocatable at relocatable
    simp only [ne_eq, neg_eq_zero] at relocatable
    exact measured relocatable

theorem Measured.convert {kind : AddressKind} (unit : kind ≠ .value) :
    (value.convert kind).Measured := by
  intro _
  rw [convert_eq, addressKind_withAddressKind]
  exact unit

/-- An operator that computes with the bits of its operand takes none that moves. -/
theorem bits_bind_displaced {f : Word → Except ErrorKind Value} {result : Value}
    (plain : ∀ n, f n = .ok result → result.Rigid) (made : value.bits >>= f = .ok result) :
    (value.displaced id words).bits >>= f = .ok (result.displaced id words) ∧ result.Measured := by
  have rigid : result.Rigid := by
    cases read : value.bits with
    | error kind => rw [read] at made; nomatch made
    | ok n =>
      rw [read] at made
      exact plain n made
  rw [bits_displaced, rigid.displaced]
  exact ⟨made, rigid.measured⟩

theorem unary_displaced {op : UnaryOp} {result : Value} (measured : value.Measured)
    (unwrapped : value.Unwrapped id words op) (computed : unary op value = .ok result) :
    unary op (value.displaced id words) = .ok (result.displaced id words) ∧ result.Measured := by
  unfold unary at computed ⊢
  rw [isUndefined_displaced]
  split at computed
  case isTrue missing =>
    cases computed
    rw [if_pos missing, rigid_undefined.displaced]
    exact ⟨rfl, rigid_undefined.measured⟩
  case isFalse defined =>
    rw [if_neg defined]
    cases op with
    | plus =>
      cases computed
      exact ⟨rfl, measured⟩
    | minus => exact ⟨negate_displaced computed, measured.negate computed⟩
    | complement =>
      refine bits_bind_displaced (fun n made => ?_) computed
      cases made
      exact rigid_absolute _
    | maskLeft => exact bits_bind_displaced (fun _ made => rigid_plain made) computed
    | maskRight => exact bits_bind_displaced (fun _ made => rigid_plain made) computed
    | complementMaskLeft => exact bits_bind_displaced (fun _ made => rigid_plain made) computed
    | complementMaskRight => exact bits_bind_displaced (fun _ made => rigid_plain made) computed
    | parcelAddress =>
      cases computed
      exact ⟨congrArg Except.ok (convert_displaced nofun measured (unwrapped .parcel rfl)),
        .convert nofun⟩
    | wordAddress =>
      cases computed
      exact ⟨congrArg Except.ok (convert_displaced nofun measured (unwrapped .word rfl)),
        .convert nofun⟩

end Unary

end Value

end CrayAssembler
