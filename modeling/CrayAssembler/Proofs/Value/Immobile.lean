import CrayAssembler.Proofs.Value.WellFormed

namespace CrayAssembler

namespace AddressKind

/-- The change of units that a number goes through; a plain number takes on any unit as it is. -/
def conversion (old new : AddressKind) : Option (AddressKind × AddressKind) :=
  if old = .value ∨ new = .value ∨ old = new then none else some (old, new)

/-- The unit of a sum. -/
def ofSum (left right : AddressKind) : AddressKind :=
  if left = .value then right else left

end AddressKind

namespace Value

open AddressKind (conversion ofSum)

/-- What the units of labels tell of a value that is computed with the labels of one section. -/
structure Sketch where
  /-- The units in which it may count where the labels are relocatable. -/
  kinds : List AddressKind
  /-- It may contain the base of the section there. -/
  relative : Bool
  /-- The unit in which it counts where the labels are immobile. -/
  unit : AddressKind
  /-- It belongs to the section there. -/
  placed : Bool
deriving DecidableEq, Repr

namespace Sketch

/-- A plain number in both modules. -/
def plain : Sketch := ⟨[.value], false, .value, false⟩

def label (kind : AddressKind) : Sketch := ⟨[kind], true, kind, true⟩

/-- A conversion has to do the same to the numbers of both modules. -/
def convert (sketch : Sketch) (kind : AddressKind) : Option Sketch :=
  if ∀ old ∈ sketch.kinds, conversion old kind = conversion sketch.unit kind then
    some { sketch with kinds := [kind], unit := kind }
  else none

def unary (op : UnaryOp) (sketch : Sketch) : Option Sketch :=
  match op with
  | .plus | .minus => some sketch
  | .complement | .maskLeft | .maskRight | .complementMaskLeft | .complementMaskRight => some plain
  | .parcelAddress => sketch.convert .parcel
  | .wordAddress => sketch.convert .word

/-- A sum. Where both parts contain the base of the section, it may cancel out and leave a plain
number. -/
def total (left right : Sketch) : Sketch where
  kinds := (left.kinds.flatMap fun first => right.kinds.map (ofSum first)) ++
    if left.relative && right.relative then [.value] else []
  relative := left.relative || right.relative
  unit := ofSum left.unit right.unit
  placed := left.placed || right.placed

/-- The right part of a sum is converted to the unit of the left one, which has to do the same to the
numbers of both modules. -/
def sum (left right : Sketch) : Option Sketch :=
  if ∀ first ∈ left.kinds, ∀ second ∈ right.kinds,
      conversion second first = conversion right.unit left.unit then
    some (left.total right)
  else none

/-- A product or quotient belongs to no section of an absolute module. -/
def product (left right : Sketch) (relative : Bool) : Sketch where
  kinds := left.kinds.flatMap fun first => right.kinds.map fun second => (productKind first second).1
  relative := relative
  unit := (productKind left.unit right.unit).1
  placed := false

def binary (op : BinaryOp) (left right : Sketch) : Option Sketch :=
  match op with
  | .add | .subtract => left.sum right
  | .multiply => some (left.product right (left.relative || right.relative))
  | .divide => some (left.product right false)
  | .and | .or | .xor | .shiftLeft | .shiftRight => some plain

end Sketch

/-- A defined integer without an external. -/
structure Ours (value : Value) : Prop where
  isFloat : value.isFloat = false
  isUndefined : value.isUndefined = false
  external : value.external = none
  isExternal : value.isExternal = false

/-- A value that is computed with relocatable labels of a section, the one that is computed with
immobile ones, and their sketch. -/
structure Sketch.Fits (sketch : Sketch) (id : SectionId) (value other : Value) : Prop where
  ours : value.Ours
  kind : value.addressKind ∈ sketch.kinds
  relative : value.isRelocatable = true → sketch.relative = true
  others : other.Ours
  rigid : other.Rigid
  unit : other.addressKind = sketch.unit
  immobile : other.attributes.immobile = sketch.placed
  home : other.home = if sketch.placed then some id else none
  address : sketch.placed = true → sketch.unit ≠ .value
  numeric : other.numeric = value.numeric

variable {id : SectionId} {value other left right leftOther rightOther : Value}
  {sketch first second : Sketch}

section Leaves

theorem ours_absolute (n : Word) : (absolute n).Ours := ⟨rfl, rfl, rfl, rfl⟩

theorem fits_plain (n : Word) : Sketch.plain.Fits id (absolute n) (absolute n) where
  ours := ours_absolute n
  kind := List.mem_singleton_self _
  relative := nofun
  others := ours_absolute n
  rigid := rfl
  unit := rfl
  immobile := rfl
  home := rfl
  address := nofun
  numeric := rfl

theorem fits_label {kind : AddressKind} (address : kind ≠ .value) (n : Word) :
    (Sketch.label kind).Fits id (.address kind id n true) (.address kind id n false) where
  ours := ⟨rfl, rfl, rfl, rfl⟩
  kind := by
    unfold Value.address
    rw [addressKind_withAddressKind]
    exact List.mem_singleton_self _
  relative _ := rfl
  others := ⟨rfl, rfl, rfl, rfl⟩
  rigid := rfl
  unit := addressKind_withAddressKind ..
  immobile := rfl
  home := rfl
  address _ := address
  numeric := rfl

end Leaves

section Unary

/-- The base of a value without an external is that of a section or nothing. -/
theorem Ours.base (ours : value.Ours) (index : Nat) : value.base ≠ .external index := by
  unfold Value.base
  rw [ours.external, ite_self]
  dsimp only
  split <;> exact nofun

theorem Ours.base_of_rigid (ours : value.Ours) (rigid : value.Rigid) : value.base = .absolute := by
  cases based : value.base with
  | absolute => rfl
  | inSection id => exact absurd based (rigid.base id)
  | external index => exact absurd based (ours.base index)

theorem Sketch.Fits.base (fits : sketch.Fits id value other) : other.base = .absolute :=
  fits.others.base_of_rigid fits.rigid

theorem Sketch.Fits.bits (fits : sketch.Fits id value other) {n : Word}
    (read : value.bits = .ok n) : other.bits = .ok n := by
  have absolute : value.isAbsolute = true := isAbsolute_of_bits read
  have still : other.isAbsolute = true := decide_eq_true fits.base
  unfold Value.bits at read ⊢
  rw [fits.ours.isFloat, absolute] at read
  rw [fits.others.isFloat, still, fits.numeric]
  exact read

/-- What is computed with the bits of the operand does not depend on the kind of module. -/
theorem Sketch.Fits.of_bits (fits : sketch.Fits id value other) {f : Word → Except ErrorKind Value}
    {result : Value} (plain : ∀ n, f n = .ok result → ∃ m, result = absolute m)
    (made : value.bits >>= f = .ok result) :
    ∃ settled, other.bits >>= f = .ok settled ∧ Sketch.plain.Fits id result settled := by
  cases read : value.bits with
  | error kind => rw [read] at made; nomatch made
  | ok n =>
    rw [read] at made
    obtain ⟨m, rfl⟩ := plain n made
    rw [fits.bits read]
    exact ⟨absolute m, made, fits_plain m⟩

theorem Ours.negate (ours : value.Ours) :
    value.negate =
      .ok { value with numeric := -value.numeric, coefficient := -value.coefficient } := by
  unfold Value.negate
  rw [ours.isFloat, ours.isExternal]
  rfl

theorem Sketch.Fits.negate (fits : sketch.Fits id value other) {result : Value}
    (negated : value.negate = .ok result) :
    ∃ settled, other.negate = .ok settled ∧ sketch.Fits id result settled := by
  rw [fits.ours.negate] at negated
  cases negated
  refine ⟨_, fits.others.negate, ?_⟩
  exact
    { ours := ⟨fits.ours.isFloat, fits.ours.isUndefined, fits.ours.external, fits.ours.isExternal⟩
      kind := fits.kind
      relative := by
        simp only [isRelocatable, ne_eq, neg_eq_zero]
        exact fits.relative
      others := ⟨fits.others.isFloat, fits.others.isUndefined, fits.others.external,
        fits.others.isExternal⟩
      rigid := fits.rigid
      unit := fits.unit
      immobile := fits.immobile
      home := fits.home
      address := fits.address
      numeric := congrArg (-·) fits.numeric }

/-- A number goes through the change of its units. -/
theorem rescaled_eq (old new : AddressKind) (n : Word) :
    rescaled old new n =
      (AddressKind.conversion old new).elim n fun units => rescaled units.1 units.2 n := by
  unfold AddressKind.conversion
  split
  case isTrue trivially =>
    rcases trivially with rfl | rfl | rfl
    · rfl
    · cases old <;> rfl
    · cases old <;> first | rfl | exact UInt64.div_one
  case isFalse => rfl

theorem rescaled_congr {old new older newer : AddressKind}
    (same : AddressKind.conversion old new = AddressKind.conversion older newer) (n : Word) :
    rescaled old new n = rescaled older newer n := by
  rw [rescaled_eq, same, ← rescaled_eq]

theorem Ours.convert (ours : value.Ours) (kind : AddressKind) : (value.convert kind).Ours :=
  ⟨ours.isFloat, ours.isUndefined, ours.external, ours.isExternal⟩

theorem addressKind_convert (kind : AddressKind) : (value.convert kind).addressKind = kind :=
  addressKind_withAddressKind ..

theorem Sketch.Fits.convert (fits : sketch.Fits id value other) (kind : AddressKind)
    (unit : kind ≠ .value) {converted : Sketch} (sketched : sketch.convert kind = some converted) :
    converted.Fits id (value.convert kind) (other.convert kind) := by
  unfold Sketch.convert at sketched
  split at sketched
  case isTrue same =>
    cases sketched
    exact
      { ours := fits.ours.convert kind
        kind := by
          rw [addressKind_convert]
          exact List.mem_singleton_self kind
        relative := fits.relative
        others := fits.others.convert kind
        rigid := fits.rigid.convert kind
        unit := addressKind_convert kind
        immobile := fits.immobile
        home := fits.home
        address := fun _ => unit
        numeric := by
          show rescaled other.addressKind kind other.numeric =
            rescaled value.addressKind kind value.numeric
          rw [fits.unit, fits.numeric]
          exact (rescaled_congr (same _ fits.kind) _).symm }
  case isFalse => nomatch sketched

theorem Sketch.Fits.unary (fits : sketch.Fits id value other) {op : UnaryOp} {after : Sketch}
    (sketched : sketch.unary op = some after) {result : Value}
    (computed : Value.unary op value = .ok result) :
    ∃ settled, Value.unary op other = .ok settled ∧ after.Fits id result settled := by
  unfold Value.unary at computed ⊢
  rw [fits.ours.isUndefined] at computed
  rw [fits.others.isUndefined]
  have masked {f : Nat → Word} (n : Word)
      (made : (do return absolute (f (← maskWidth n))) = Except.ok result) :
      ∃ m, result = absolute m := by
    cases width : maskWidth n with
    | error kind => rw [width] at made; nomatch made
    | ok count =>
      rw [width] at made
      cases made
      exact ⟨_, rfl⟩
  cases op with
  | plus =>
    cases sketched
    cases computed
    exact ⟨other, rfl, fits⟩
  | minus =>
    cases sketched
    exact fits.negate computed
  | complement =>
    cases sketched
    refine fits.of_bits (fun n made => ?_) computed
    cases made
    exact ⟨_, rfl⟩
  | maskLeft | maskRight | complementMaskLeft | complementMaskRight =>
    cases sketched
    exact fits.of_bits masked computed
  | parcelAddress =>
    cases computed
    exact ⟨_, rfl, fits.convert .parcel nofun sketched⟩
  | wordAddress =>
    cases computed
    exact ⟨_, rfl, fits.convert .word nofun sketched⟩

end Unary

section Sum

/-- The right part of a sum, in the unit of the left one. -/
def aligned (left right : Value) : Value :=
  if differ left right then right.convert left.addressKind else right

theorem numeric_aligned :
    (aligned left right).numeric =
      rescaled right.addressKind left.addressKind right.numeric := by
  unfold aligned
  cases mixed : differ left right with
  | true => rfl
  | false =>
    have trivially : AddressKind.conversion right.addressKind left.addressKind = none := by
      refine if_pos ?_
      rcases kinds_of_differ mixed with plain | plain | same
      · exact .inr (.inl plain)
      · exact .inl plain
      · exact .inr (.inr same)
    rw [rescaled_eq, trivially]
    rfl

theorem sumKind_aligned :
    sumKind left (aligned left right) = ofSum left.addressKind right.addressKind := by
  unfold aligned
  cases mixed : differ left right with
  | false => rfl
  | true =>
    unfold differ at mixed
    simp only [Bool.and_eq_true, decide_eq_true_eq] at mixed
    unfold sumKind ofSum
    rw [if_neg mixed.1.1, if_neg mixed.1.1]

theorem Ours.aligned (ours : right.Ours) : (aligned left right).Ours := by
  unfold Value.aligned
  split
  · exact ours.convert _
  · exact ours

theorem home_aligned : (aligned left right).home = right.home := by
  unfold aligned
  split <;> rfl

theorem immobile_aligned :
    (aligned left right).attributes.immobile = right.attributes.immobile := by
  unfold aligned
  split <;> rfl

theorem sumBase_aligned (subtract : Bool) :
    sumBase left (aligned left right) subtract = sumBase left right subtract := by
  unfold aligned
  split <;> rfl

theorem Ours.add (leftOurs : left.Ours) (rightOurs : right.Ours) (subtract : Bool) :
    add left right subtract =
      (sumBase left right subtract).map fun found =>
        ⟨sumOf left (Value.aligned left right)
          (if subtract then left.numeric - (Value.aligned left right).numeric
            else left.numeric + (Value.aligned left right).numeric) found, differ left right⟩ := by
  rw [add_integers leftOurs.isFloat rightOurs.isFloat]
  show (addAligned left (Value.aligned left right) subtract).map _ = _
  rw [addAligned_eq, sumBase_aligned]
  cases sumBase left right subtract <;> rfl

theorem base_of_external {index : Nat} {coefficient : Int64} {subtract : Bool}
    (summed : sumBase left right subtract = .ok (.external index, coefficient)) :
    left.base = .external index ∨ right.base = .external index := by
  unfold sumBase at summed
  dsimp only at summed
  split at summed
  case h_2 outside _ =>
    cases summed
    exact .inl outside
  case h_3 outside =>
    split at summed
    · nomatch summed
    · cases summed
      exact .inr outside
  case h_6 => split at summed <;> nomatch summed
  all_goals nomatch summed

/-- The base of a section cancels out only where both parts contain it. -/
theorem isRelocatable_of_cancelled {home : SectionId} {subtract : Bool}
    (summed : sumBase left right subtract = .ok (.inSection home, 0)) :
    left.isRelocatable = true ∧ right.isRelocatable = true := by
  have contained {value : Value} (relative : value.base = .inSection home) :
      value.coefficient ≠ 0 := by
    have relocatable := isRelocatable_of_base relative
    unfold isRelocatable at relocatable
    simp only [Bool.and_eq_true, decide_eq_true_eq] at relocatable
    exact relocatable.2
  unfold sumBase at summed
  dsimp only at summed
  split at summed
  case h_1 => nomatch summed
  case h_2 => nomatch summed
  case h_3 => split at summed <;> nomatch summed
  case h_4 inside _ =>
    simp only [Except.ok.injEq, Prod.mk.injEq, Base.inSection.injEq] at summed
    obtain ⟨rfl, none⟩ := summed
    exact absurd none (contained inside)
  case h_5 inside =>
    simp only [Except.ok.injEq, Prod.mk.injEq, Base.inSection.injEq] at summed
    obtain ⟨rfl, none⟩ := summed
    have absent : right.coefficient = 0 := by
      cases subtract
      · exact none
      · exact neg_eq_zero.mp none
    exact absurd absent (contained inside)
  case h_6 inside within =>
    exact ⟨isRelocatable_of_base inside, isRelocatable_of_base within⟩
  case h_7 => nomatch summed

theorem ours_sumOf {subtract : Bool} {found : Base × Int64} (leftOurs : left.Ours)
    (rightOurs : right.Ours) (summed : sumBase left right subtract = .ok found) {part : Value}
    (n : Word) : (sumOf left part n found).Ours := by
  obtain ⟨base, coefficient⟩ := found
  cases base with
  | absolute => exact ⟨rfl, rfl, rfl, rfl⟩
  | inSection home =>
    simp only [sumOf]
    split
    · exact ours_absolute n
    · exact ⟨rfl, rfl, rfl, rfl⟩
  | external index =>
    rcases base_of_external summed with outside | outside
    · exact absurd outside (leftOurs.base index)
    · exact absurd outside (rightOurs.base index)

/-- The unit of a sum is among those that its sketch lists. -/
theorem kind_of_sum {subtract : Bool} {found : Base × Int64}
    (firstFits : first.Fits id left leftOther) (secondFits : second.Fits id right rightOther)
    (summed : sumBase left right subtract = .ok found) (n : Word) :
    (sumOf left (aligned left right) n found).addressKind ∈ (first.total second).kinds := by
  have kept : sumKind left (aligned left right) ∈
      first.kinds.flatMap fun first => second.kinds.map (ofSum first) := by
    rw [sumKind_aligned]
    exact List.mem_flatMap.mpr ⟨_, firstFits.kind, List.mem_map_of_mem secondFits.kind⟩
  -- Every sum keeps the unit but one in which the base cancels out.
  obtain ⟨base, coefficient⟩ := found
  cases base with
  | absolute =>
    refine List.mem_append_left _ ?_
    rw [sumOf, addressKind_withAddressKind]
    exact kept
  | external index =>
    refine List.mem_append_left _ ?_
    rw [sumOf, addressKind_withAddressKind]
    exact kept
  | inSection home =>
    simp only [sumOf]
    split
    case isTrue cancelled =>
      subst cancelled
      obtain ⟨inside, within⟩ := isRelocatable_of_cancelled summed
      refine List.mem_append_right _ ?_
      rw [firstFits.relative inside, secondFits.relative within]
      exact List.mem_singleton_self _
    case isFalse =>
      refine List.mem_append_left _ ?_
      rw [addressKind_withAddressKind]
      exact kept

theorem relative_of_sum {subtract : Bool} {found : Base × Int64}
    (firstFits : first.Fits id left leftOther) (secondFits : second.Fits id right rightOther)
    (summed : sumBase left right subtract = .ok found) {part : Value} {n : Word}
    (relocatable : (sumOf left part n found).isRelocatable = true) :
    (first.relative || second.relative) = true := by
  obtain ⟨base, coefficient⟩ := found
  cases base with
  | absolute => nomatch relocatable
  | external index => nomatch relocatable
  | inSection home =>
    rcases base_of_sumBase summed with inside | inside
    · rw [firstFits.relative (isRelocatable_of_base inside)]
      rfl
    · rw [secondFits.relative (isRelocatable_of_base inside), Bool.or_true]

/-- A sum in an absolute module belongs to the section if one of its parts does. -/
theorem placed_of_sum (firstFits : first.Fits id left leftOther)
    (secondFits : second.Fits id right rightOther) (n : Word) :
    let settled := sumOf leftOther (aligned leftOther rightOther) n (.absolute, 0)
    let placed := first.placed || second.placed
    settled.attributes.immobile = placed ∧ settled.home = (if placed then some id else none) ∧
      (placed = true → ofSum first.unit second.unit ≠ .value) := by
  have address : (first.placed || second.placed) = true →
      ofSum first.unit second.unit ≠ .value := by
    intro placed
    unfold ofSum
    split
    case isTrue plain =>
      rcases Bool.or_eq_true .. |>.mp placed with before | after
      · exact absurd plain (firstFits.address before)
      · exact secondFits.address after
    case isFalse address => exact address
  have marked : (sumOf leftOther (aligned leftOther rightOther) n (.absolute, 0)).attributes.immobile =
      (first.placed || second.placed) := by
    show (decide (sumKind leftOther (aligned leftOther rightOther) ≠ .value) &&
      (leftOther.attributes.immobile || (aligned leftOther rightOther).attributes.immobile)) = _
    rw [sumKind_aligned, immobile_aligned, firstFits.unit, secondFits.unit, firstFits.immobile,
      secondFits.immobile]
    cases placed : first.placed || second.placed with
    | false => exact Bool.and_false _
    | true => rw [decide_eq_true (address placed), Bool.and_true]
  refine ⟨marked, ?_, address⟩
  show (if (sumOf leftOther (aligned leftOther rightOther) n (.absolute, 0)).attributes.immobile then
    leftOther.home.or (aligned leftOther rightOther).home else none) = _
  rw [marked, home_aligned, firstFits.home, secondFits.home]
  cases first.placed <;> cases second.placed <;> rfl

theorem Sketch.Fits.add (firstFits : first.Fits id left leftOther)
    (secondFits : second.Fits id right rightOther) {total : Sketch}
    (sketched : first.sum second = some total) {subtract : Bool} {outcome : Outcome}
    (added : Value.add left right subtract = .ok outcome) :
    ∃ settled, Value.add leftOther rightOther subtract = .ok settled ∧
      total.Fits id outcome.value settled.value := by
  unfold Sketch.sum at sketched
  obtain ⟨same, made⟩ := Option.ite_none_right_eq_some.mp sketched
  cases made
  rw [firstFits.ours.add secondFits.ours] at added
  cases summed : sumBase left right subtract with
  | error kind => rw [summed] at added; nomatch added
  | ok found =>
    rw [summed] at added
    cases added
    -- Nothing is counted in an absolute module, so that no sum fails there.
    have still : sumBase leftOther rightOther subtract = .ok (.absolute, 0) := by
      unfold sumBase
      rw [firstFits.base, secondFits.base]
    have part : (aligned leftOther rightOther).numeric = (aligned left right).numeric := by
      rw [numeric_aligned, numeric_aligned, firstFits.unit, secondFits.unit, secondFits.numeric]
      exact (rescaled_congr (same _ firstFits.kind _ secondFits.kind) _).symm
    obtain ⟨immobile, home, address⟩ := placed_of_sum firstFits secondFits
      (if subtract then left.numeric - (aligned left right).numeric
        else left.numeric + (aligned left right).numeric)
    rw [firstFits.others.add secondFits.others, still, firstFits.numeric, part]
    refine ⟨_, rfl, ?_⟩
    exact
      { ours := ours_sumOf firstFits.ours secondFits.ours summed _
        kind := kind_of_sum firstFits secondFits summed _
        relative := relative_of_sum firstFits secondFits summed
        others := ours_sumOf firstFits.others secondFits.others still _
        rigid := rfl
        unit := by
          refine (addressKind_withAddressKind ..).trans ?_
          rw [sumKind_aligned, firstFits.unit, secondFits.unit]
          rfl
        immobile := immobile
        home := home
        address := address
        numeric := by rw [numeric_sumOf, numeric_sumOf] }

end Sum

section Binary

/-- A product or quotient in an absolute module is a number with the unit of its operands. -/
theorem Sketch.Fits.product (firstFits : first.Fits id left leftOther)
    (secondFits : second.Fits id right rightOther) {relative : Bool} {result : Value}
    (ours : result.Ours)
    (kind : result.addressKind = (productKind left.addressKind right.addressKind).1)
    (contained : result.isRelocatable = true → relative = true) :
    (first.product second relative).Fits id result
      ((absolute result.numeric).withAddressKind
        (productKind leftOther.addressKind rightOther.addressKind).1) where
  ours := ours
  kind := by
    rw [kind]
    exact List.mem_flatMap.mpr ⟨_, firstFits.kind, List.mem_map_of_mem secondFits.kind⟩
  relative := contained
  others := ⟨rfl, rfl, rfl, rfl⟩
  rigid := rfl
  unit := by
    rw [addressKind_withAddressKind, firstFits.unit, secondFits.unit]
    rfl
  immobile := rfl
  home := rfl
  address := nofun
  numeric := rfl

theorem ours_scaled (ours : value.Ours) (n factor : Word) (kind : AddressKind) :
    (value.scaled n factor kind).Ours :=
  ⟨ours.isFloat, ours.isUndefined, ours.external, ours.isExternal⟩

theorem Sketch.Fits.multiply (firstFits : first.Fits id left leftOther)
    (secondFits : second.Fits id right rightOther) {outcome : Outcome}
    (multiplied : Value.multiply left right = .ok outcome) :
    ∃ settled, Value.multiply leftOther rightOther = .ok settled ∧
      (first.product second (first.relative || second.relative)).Fits id outcome.value
        settled.value := by
  have settled : Value.multiply leftOther rightOther =
      .ok ⟨(absolute (left.numeric * right.numeric)).withAddressKind
        (productKind leftOther.addressKind rightOther.addressKind).1,
        (productKind leftOther.addressKind rightOther.addressKind).2⟩ := by
    unfold Value.multiply
    rw [firstFits.base, secondFits.base, firstFits.numeric, secondFits.numeric]
  refine ⟨_, settled, ?_⟩
  unfold Value.multiply at multiplied
  dsimp only at multiplied
  split at multiplied
  case h_1 =>
    cases multiplied
    exact firstFits.product secondFits ⟨rfl, rfl, rfl, rfl⟩ (addressKind_withAddressKind ..) nofun
  case h_2 inside _ =>
    cases multiplied
    refine firstFits.product secondFits (ours_scaled firstFits.ours ..)
      (addressKind_withAddressKind ..) fun _ => ?_
    rw [firstFits.relative (isRelocatable_of_base inside)]
    rfl
  case h_3 inside =>
    cases multiplied
    refine firstFits.product secondFits (ours_scaled secondFits.ours ..)
      (addressKind_withAddressKind ..) fun _ => ?_
    rw [secondFits.relative (isRelocatable_of_base inside), Bool.or_true]
  case h_4 => nomatch multiplied

theorem Sketch.Fits.divide (firstFits : first.Fits id left leftOther)
    (secondFits : second.Fits id right rightOther) {outcome : Outcome}
    (divided : Value.divide left right = .ok outcome) :
    ∃ settled, Value.divide leftOther rightOther = .ok settled ∧
      (first.product second false).Fits id outcome.value settled.value := by
  have still : leftOther.isAbsolute = true ∧ rightOther.isAbsolute = true :=
    ⟨decide_eq_true firstFits.base, decide_eq_true secondFits.base⟩
  unfold Value.divide at divided ⊢
  dsimp only at divided ⊢
  obtain ⟨-, -, divided⟩ := base_of_absolute divided
  rw [still.1, still.2, firstFits.numeric, secondFits.numeric]
  by_cases zero : right.numeric = 0
  · rw [if_pos zero] at divided
    nomatch divided
  · rw [if_neg zero] at divided
    cases divided
    refine ⟨_, if_neg zero, ?_⟩
    exact firstFits.product secondFits ⟨rfl, rfl, rfl, rfl⟩ (addressKind_withAddressKind ..) nofun

theorem Sketch.Fits.logic (firstFits : first.Fits id left leftOther)
    (secondFits : second.Fits id right rightOther) {combine : Word → Word → Word}
    {outcome : Outcome} (combined : Value.logic left right combine = .ok outcome) :
    ∃ settled, Value.logic leftOther rightOther combine = .ok settled ∧
      Sketch.plain.Fits id outcome.value settled.value := by
  unfold Value.logic at combined ⊢
  rw [firstFits.ours.isFloat, secondFits.ours.isFloat] at combined
  rw [firstFits.others.isFloat, secondFits.others.isFloat]
  cases before : left.bits with
  | error kind => rw [before] at combined; nomatch combined
  | ok n =>
    cases after : right.bits with
    | error kind => rw [before, after] at combined; nomatch combined
    | ok m =>
      rw [before, after] at combined
      cases combined
      rw [firstFits.bits before, secondFits.bits after]
      exact ⟨_, rfl, fits_plain _⟩

theorem Sketch.Fits.binary (firstFits : first.Fits id left leftOther)
    (secondFits : second.Fits id right rightOther) {op : BinaryOp} {after : Sketch}
    (sketched : first.binary op second = some after) {outcome : Outcome}
    (computed : Value.binary op left right = .ok outcome) :
    ∃ settled, Value.binary op leftOther rightOther = .ok settled ∧
      after.Fits id outcome.value settled.value := by
  unfold Value.binary at computed ⊢
  rw [firstFits.ours.isUndefined, secondFits.ours.isUndefined] at computed
  rw [firstFits.others.isUndefined, secondFits.others.isUndefined]
  change binaryDefined op left right = .ok outcome at computed
  show ∃ settled, binaryDefined op leftOther rightOther = .ok settled ∧ _
  cases op with
  | add | subtract => exact firstFits.add secondFits sketched computed
  | multiply =>
    cases sketched
    simp only [binaryDefined, firstFits.ours.isFloat, secondFits.ours.isFloat] at computed
    simp only [binaryDefined, firstFits.others.isFloat, secondFits.others.isFloat]
    exact firstFits.multiply secondFits computed
  | divide =>
    cases sketched
    simp only [binaryDefined, firstFits.ours.isFloat, secondFits.ours.isFloat] at computed
    simp only [binaryDefined, firstFits.others.isFloat, secondFits.others.isFloat]
    exact firstFits.divide secondFits computed
  | and | or | xor | shiftLeft | shiftRight =>
    cases sketched
    exact firstFits.logic secondFits computed

end Binary

section Integer

/-- No operator makes an integer of a floating-point number. -/
theorem isFloat_of_unary {op : UnaryOp} {result : Value} (computed : unary op value = .ok result)
    (defined : value.isUndefined = false) (integer : result.isFloat = false) :
    value.isFloat = false := by
  refine eq_false_of_ne_true fun float => ?_
  have unread : value.bits = .error .valueType := if_pos float
  unfold unary at computed
  rw [defined] at computed
  cases op with
  | plus =>
    cases computed
    exact absurd (integer.symm.trans float) Bool.false_ne_true
  | minus =>
    have negated : value.negate = .ok result := computed
    rw [negate, if_pos float] at negated
    cases negated
    cases integer
  | complement | maskLeft | maskRight | complementMaskLeft | complementMaskRight =>
    simp only [unaryDefined, unread] at computed
    cases computed
  | parcelAddress | wordAddress =>
    cases computed
    exact absurd (integer.symm.trans float) Bool.false_ne_true

theorem isFloat_multiplyFloats {isQuotient : Bool} {result : Value}
    (computed : multiplyFloats left right isQuotient = .ok result) : result.isFloat = true := by
  unfold multiplyFloats at computed
  cases isQuotient <;> simp only [Bool.false_eq_true, if_false, if_true] at computed
  · obtain ⟨-, -, computed⟩ := base_of_absolute computed
    cases computed
    rfl
  · obtain ⟨-, -, computed⟩ := base_of_absolute computed
    split at computed
    · nomatch computed
    · cases computed
      rfl

theorem isFloat_of_binary {op : BinaryOp} {outcome : Outcome}
    (computed : binary op left right = .ok outcome)
    (defined : (left.isUndefined || right.isUndefined) = false)
    (integer : outcome.value.isFloat = false) : left.isFloat = false ∧ right.isFloat = false := by
  refine Bool.or_eq_false_iff.mp (eq_false_of_ne_true fun float => ?_)
  unfold binary at computed
  rw [defined] at computed
  have added {subtract : Bool} (sum : add left right subtract = .ok outcome) : False := by
    unfold add at sum
    rw [if_pos float] at sum
    obtain ⟨-, -, made⟩ := base_of_absolute sum
    cases made
    nomatch integer
  have multiplied {isQuotient : Bool}
      (product : (multiplyFloats left right isQuotient).map .plain = .ok outcome) : False := by
    cases made : multiplyFloats left right isQuotient with
    | error kind => rw [made] at product; nomatch product
    | ok result =>
      rw [made] at product
      cases product
      exact absurd (integer.symm.trans (isFloat_multiplyFloats made)) nofun
  have combined {combine : Word → Word → Word} (made : logic left right combine = .ok outcome) :
      False := by
    rw [logic, if_pos float] at made
    nomatch made
  cases op with
  | add | subtract => exact added computed
  | multiply | divide =>
    simp only [Bool.false_eq_true, if_false, binaryDefined, if_pos float] at computed
    exact multiplied computed
  | and | or | xor | shiftLeft | shiftRight => exact combined computed

end Integer

section OneUnit

variable {kind : AddressKind}

/-- Nothing but plain numbers and addresses in one unit. -/
structure Sketch.Keeps (sketch : Sketch) (kind : AddressKind) : Prop where
  kinds : ∀ old ∈ sketch.kinds, old = .value ∨ old = kind
  unit : sketch.unit = .value ∨ sketch.unit = kind

theorem conversion_of_keeps {old new : AddressKind} (before : old = .value ∨ old = kind)
    (after : new = .value ∨ new = kind) : AddressKind.conversion old new = none := by
  refine if_pos ?_
  rcases before with plain | rfl
  · exact .inl plain
  · rcases after with plain | rfl
    · exact .inr (.inl plain)
    · exact .inr (.inr rfl)

theorem Sketch.keeps_plain : Sketch.plain.Keeps kind :=
  ⟨fun _ member => .inl (List.mem_singleton.mp member), .inl rfl⟩

theorem Sketch.keeps_label : (Sketch.label kind).Keeps kind :=
  ⟨fun _ member => .inr (List.mem_singleton.mp member), .inr rfl⟩

theorem Sketch.Keeps.unary {op : UnaryOp} (keeps : sketch.Keeps kind) (stays : op.target? = none) :
    ∃ after, sketch.unary op = some after ∧ after.Keeps kind := by
  cases op with
  | plus | minus => exact ⟨sketch, rfl, keeps⟩
  | complement | maskLeft | maskRight | complementMaskLeft | complementMaskRight =>
    exact ⟨plain, rfl, keeps_plain⟩
  | parcelAddress => nomatch stays
  | wordAddress => nomatch stays

theorem Sketch.Keeps.total (before : first.Keeps kind) (after : second.Keeps kind) :
    (first.total second).Keeps kind := by
  have summed {left right : AddressKind} (leftKind : left = .value ∨ left = kind)
      (rightKind : right = .value ∨ right = kind) :
      ofSum left right = .value ∨ ofSum left right = kind := by
    unfold ofSum
    split
    · exact rightKind
    · exact leftKind
  refine ⟨fun old member => ?_, summed before.unit after.unit⟩
  rcases List.mem_append.mp member with kept | cancelled
  · obtain ⟨left, leftMember, rest⟩ := List.mem_flatMap.mp kept
    obtain ⟨right, rightMember, rfl⟩ := List.mem_map.mp rest
    exact summed (before.kinds left leftMember) (after.kinds right rightMember)
  · split at cancelled
    · exact .inl (List.mem_singleton.mp cancelled)
    · nomatch cancelled

theorem productKind_fst (left right : AddressKind) :
    (productKind left right).1 = .value ∨ (productKind left right).1 = left ∨
      (productKind left right).1 = right := by
  cases left <;> cases right <;> decide

theorem Sketch.Keeps.product (before : first.Keeps kind) (after : second.Keeps kind)
    (relative : Bool) : (first.product second relative).Keeps kind := by
  have multiplied {left right : AddressKind} (leftKind : left = .value ∨ left = kind)
      (rightKind : right = .value ∨ right = kind) :
      (productKind left right).1 = .value ∨ (productKind left right).1 = kind := by
    rcases productKind_fst left right with plain | same | same
    · exact .inl plain
    · rw [same]
      exact leftKind
    · rw [same]
      exact rightKind
  refine ⟨fun old member => ?_, multiplied before.unit after.unit⟩
  obtain ⟨left, leftMember, rest⟩ := List.mem_flatMap.mp member
  obtain ⟨right, rightMember, rfl⟩ := List.mem_map.mp rest
  exact multiplied (before.kinds left leftMember) (after.kinds right rightMember)

theorem Sketch.Keeps.sum (before : first.Keeps kind) (after : second.Keeps kind) :
    ∃ total, first.sum second = some total ∧ total.Keeps kind := by
  refine ⟨first.total second, if_pos fun left leftMember right rightMember => ?_,
    before.total after⟩
  rw [conversion_of_keeps (after.kinds right rightMember) (before.kinds left leftMember),
    conversion_of_keeps after.unit before.unit]

theorem Sketch.Keeps.binary (op : BinaryOp) (before : first.Keeps kind)
    (after : second.Keeps kind) :
    ∃ result, first.binary op second = some result ∧ result.Keeps kind := by
  cases op with
  | add | subtract => exact before.sum after
  | multiply => exact ⟨_, rfl, before.product after _⟩
  | divide => exact ⟨_, rfl, before.product after false⟩
  | and | or | xor | shiftLeft | shiftRight => exact ⟨plain, rfl, keeps_plain⟩

end OneUnit

section Settled

/-- In an absolute module a value is a constant unless it belongs to the section. -/
theorem Sketch.Fits.isConstant (fits : sketch.Fits id value other) :
    other.isConstant = !sketch.placed := by
  have integer : other.kind = .integer := by
    have known := of_decide_eq_false fits.others.isFloat
    cases kind : other.kind with
    | integer => rfl
    | float => exact absurd kind known
  unfold Value.isConstant
  rw [fits.others.isExternal, fits.others.isUndefined, integer, fits.home]
  cases sketch.placed <;> rfl

/-- What belongs to the section is moved with it. -/
theorem Sketch.Fits.displace (fits : sketch.Fits id value other) (offset : SectionId → Nat) :
    SymbolTable.displace offset other =
      if sketch.placed then
        { other with
          numeric := other.numeric + UInt64.ofNat (offset id * sketch.unit.perWord) }
      else other := by
  unfold SymbolTable.displace
  rw [fits.others.isUndefined, fits.others.isExternal, fits.home, fits.unit]
  cases placed : sketch.placed with
  | false => exact ite_self _
  | true =>
    rw [decide_eq_false (fits.address placed)]
    rfl

end Settled

end Value

end CrayAssembler
