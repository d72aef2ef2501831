import CrayAssembler.Value.Arithmetic

namespace CrayAssembler

namespace Value

/-- The section and the external of a value are among the first so many. -/
structure Refers (sections externals : Nat) (value : Value) : Prop where
  home_lt : ∀ id, value.home = some id → id < sections
  external_lt : ∀ index, value.external = some index → index < externals

/-- The base of a value is among the first so many. -/
def Base.Refers (sections externals : Nat) : Base → Prop
  | .absolute => True
  | .inSection id => id < sections
  | .external index => index < externals

variable {sections externals : Nat} {value left right : Value}

/-- A constant refers to nothing. -/
theorem isConstant_iff : value.isConstant ↔
    (value.home = none ∧ value.isExternal = false ∧ value.isUndefined = false) ∧
      value.isFloat = false := by
  simp only [isConstant, isFloat, Bool.and_eq_true, Option.isNone_iff_eq_none, Bool.not_eq_true',
    decide_eq_true_iff, decide_eq_false_iff_not, and_assoc]
  cases value.kind <;> simp

theorem refers_plain (home : value.home = none) (external : value.external = none) :
    value.Refers sections externals where
  home_lt := by
    rw [home]
    exact nofun
  external_lt := by
    rw [external]
    exact nofun

theorem refers_absolute (n : Word) : (absolute n).Refers sections externals :=
  refers_plain rfl rfl

theorem refers_float (x : Double) : (float x).Refers sections externals :=
  refers_plain rfl rfl

theorem refers_undefined : undefined.Refers sections externals :=
  refers_plain rfl rfl

theorem refers_address (kind : AddressKind) {id : SectionId} (known : id < sections) (n : Word)
    (relocatable : Bool) : (address kind id n relocatable).Refers sections externals where
  home_lt := by
    rintro _ ⟨⟩
    exact known
  external_lt := nofun

/-- Only the section and the external of a value count. -/
theorem Refers.of_same {other : Value} (refers : value.Refers sections externals)
    (home : other.home = value.home) (external : other.external = value.external) :
    other.Refers sections externals where
  home_lt := by
    rw [home]
    exact refers.home_lt
  external_lt := by
    rw [external]
    exact refers.external_lt

theorem Refers.mono (refers : value.Refers sections externals) {moreSections moreExternals : Nat}
    (more : sections ≤ moreSections) (moreToo : externals ≤ moreExternals) :
    value.Refers moreSections moreExternals where
  home_lt id found := Nat.lt_of_lt_of_le (refers.home_lt id found) more
  external_lt index found := Nat.lt_of_lt_of_le (refers.external_lt index found) moreToo

theorem Refers.withAddressKind (refers : value.Refers sections externals) (kind : AddressKind) :
    (value.withAddressKind kind).Refers sections externals :=
  refers.of_same rfl rfl

theorem Refers.convert (refers : value.Refers sections externals) (kind : AddressKind) :
    (value.convert kind).Refers sections externals :=
  refers.of_same rfl rfl

theorem Refers.base (refers : value.Refers sections externals) :
    value.base.Refers sections externals := by
  unfold Value.base
  split
  case h_1 index found =>
    split at found
    · exact refers.external_lt index found
    · nomatch found
  case h_2 =>
    split
    case h_1 id found =>
      split at found
      · exact refers.home_lt id found
      · nomatch found
    case h_2 => trivial

theorem Refers.negate (refers : value.Refers sections externals) {result : Value}
    (negated : value.negate = .ok result) : result.Refers sections externals := by
  unfold Value.negate at negated
  split at negated
  · cases negated
    exact refers_float _
  · split at negated
    · nomatch negated
    · cases negated
      exact refers.of_same rfl rfl

theorem Refers.unary (op : UnaryOp) (refers : value.Refers sections externals) {result : Value}
    (computed : Value.unary op value = .ok result) : result.Refers sections externals := by
  unfold Value.unary at computed
  split at computed
  · cases computed
    exact refers_undefined
  -- A mask or a complement is a plain number whenever it is anything.
  have plain {number : Except ErrorKind Word} {f : Word → Word}
      (made : (do return absolute (f (← number))) = Except.ok result) :
      result.Refers sections externals := by
    cases number with
    | error kind => nomatch made
    | ok n =>
      cases made
      exact refers_absolute _
  have masked {number : Except ErrorKind Word} {f : Nat → Word}
      (made : (do return absolute (f (← maskWidth (← number)))) = Except.ok result) :
      result.Refers sections externals := by
    cases number with
    | error kind => nomatch made
    | ok n =>
      change (do return absolute (f (← maskWidth n))) = Except.ok result at made
      cases width : maskWidth n with
      | error kind => rw [width] at made; nomatch made
      | ok width =>
        rw [width] at made
        cases made
        exact refers_absolute _
  cases op with
  | plus =>
    cases computed
    exact refers
  | minus => exact refers.negate computed
  | complement => exact plain computed
  | maskLeft => exact masked computed
  | maskRight => exact masked computed
  | complementMaskLeft => exact masked computed
  | complementMaskRight => exact masked computed
  | parcelAddress =>
    cases computed
    exact refers.convert .parcel
  | wordAddress =>
    cases computed
    exact refers.convert .word

theorem refers_sumBase (leftRefers : left.Refers sections externals)
    (rightRefers : right.Refers sections externals) {subtract : Bool} {base : Base}
    {coefficient : Int64} (summed : sumBase left right subtract = .ok (base, coefficient)) :
    base.Refers sections externals := by
  have leftBase := leftRefers.base
  have rightBase := rightRefers.base
  unfold sumBase at summed
  dsimp only at summed
  split at summed
  case h_1 =>
    cases summed
    trivial
  case h_2 found _ =>
    cases summed
    rwa [found] at leftBase
  case h_3 _ found =>
    split at summed
    · nomatch summed
    · cases summed
      rwa [found] at rightBase
  case h_4 found _ =>
    cases summed
    rwa [found] at leftBase
  case h_5 _ found =>
    cases summed
    rwa [found] at rightBase
  case h_6 found _ =>
    split at summed
    · cases summed
      rwa [found] at leftBase
    · nomatch summed
  case h_7 => nomatch summed

theorem refers_addAligned (leftRefers : left.Refers sections externals)
    (rightRefers : right.Refers sections externals) {subtract : Bool} {result : Value}
    (added : addAligned left right subtract = .ok result) : result.Refers sections externals := by
  unfold addAligned at added
  dsimp only at added
  cases summed : sumBase left right subtract with
  | error kind => rw [summed] at added; nomatch added
  | ok found =>
    obtain ⟨base, coefficient⟩ := found
    have based := refers_sumBase leftRefers rightRefers summed
    rw [summed] at added
    cases base with
    | inSection id =>
      change (if coefficient = 0 then _ else _) = _ at added
      split at added <;> cases added
      · exact refers_absolute _
      · apply Refers.withAddressKind
        refine ⟨?_, nofun⟩
        rintro _ ⟨⟩
        exact based
    | external index =>
      cases added
      apply Refers.withAddressKind
      refine ⟨nofun, ?_⟩
      rintro _ ⟨⟩
      exact based
    | absolute =>
      cases added
      apply Refers.withAddressKind
      refine ⟨?_, nofun⟩
      intro id found
      obtain ⟨-, found⟩ := Option.ite_none_right_eq_some.mp found
      rcases Option.or_eq_some_iff.mp found with first | ⟨-, second⟩
      · exact leftRefers.home_lt id first
      · exact rightRefers.home_lt id second

theorem refers_add (leftRefers : left.Refers sections externals)
    (rightRefers : right.Refers sections externals) {subtract : Bool} {outcome : Outcome}
    (added : add left right subtract = .ok outcome) : outcome.value.Refers sections externals := by
  unfold add at added
  dsimp only at added
  split at added
  · split at added
    · nomatch added
    · cases added
      exact refers_float _
  · have aligned : ∀ {kind : AddressKind} {mixed : Bool},
        (if mixed then right.convert kind else right).Refers sections externals := by
      intro kind mixed
      cases mixed
      · exact rightRefers
      · exact rightRefers.convert kind
    cases summed : addAligned left _ subtract with
    | error kind => rw [summed] at added; nomatch added
    | ok result =>
      rw [summed] at added
      cases added
      exact refers_addAligned leftRefers aligned summed

theorem refers_divide {outcome : Outcome} (divided : divide left right = .ok outcome) :
    outcome.value.Refers sections externals := by
  unfold divide at divided
  dsimp only at divided
  split at divided
  · nomatch divided
  · split at divided
    · nomatch divided
    · cases divided
      exact (refers_absolute _).withAddressKind _

theorem refers_multiply (leftRefers : left.Refers sections externals)
    (rightRefers : right.Refers sections externals) {outcome : Outcome}
    (multiplied : multiply left right = .ok outcome) :
    outcome.value.Refers sections externals := by
  unfold multiply at multiplied
  dsimp only at multiplied
  split at multiplied <;> cases multiplied
  · exact (refers_absolute _).withAddressKind _
  · exact leftRefers.of_same rfl rfl
  · exact rightRefers.of_same rfl rfl

theorem refers_multiplyFloats {isQuotient : Bool} {result : Value}
    (multiplied : multiplyFloats left right isQuotient = .ok result) :
    result.Refers sections externals := by
  unfold multiplyFloats at multiplied
  cases isQuotient with
  | false =>
    simp only [Bool.false_eq_true, if_false] at multiplied
    split at multiplied
    · nomatch multiplied
    · cases multiplied
      exact refers_float _
  | true =>
    simp only [if_true] at multiplied
    split at multiplied
    · nomatch multiplied
    · split at multiplied
      · nomatch multiplied
      · cases multiplied
        exact refers_float _

theorem refers_logic {combine : Word → Word → Word} {outcome : Outcome}
    (combined : logic left right combine = .ok outcome) :
    outcome.value.Refers sections externals := by
  unfold logic at combined
  split at combined
  · nomatch combined
  · cases first : left.bits with
    | error kind => rw [first] at combined; nomatch combined
    | ok n =>
      cases second : right.bits with
      | error kind => rw [first, second] at combined; nomatch combined
      | ok m =>
        rw [first, second] at combined
        cases combined
        exact refers_absolute _

theorem refers_floats {isQuotient : Bool} {outcome : Outcome}
    (multiplied : (multiplyFloats left right isQuotient).map .plain = .ok outcome) :
    outcome.value.Refers sections externals := by
  cases result : multiplyFloats left right isQuotient with
  | error kind => rw [result] at multiplied; nomatch multiplied
  | ok value =>
    rw [result] at multiplied
    cases multiplied
    exact refers_multiplyFloats result

theorem Refers.binary (op : BinaryOp) (leftRefers : left.Refers sections externals)
    (rightRefers : right.Refers sections externals) {outcome : Outcome}
    (computed : Value.binary op left right = .ok outcome) :
    outcome.value.Refers sections externals := by
  unfold Value.binary at computed
  split at computed
  · cases computed
    exact refers_undefined
  cases op with
  | add => exact refers_add leftRefers rightRefers computed
  | subtract => exact refers_add leftRefers rightRefers computed
  | multiply =>
    simp only [binaryDefined] at computed
    split at computed
    · exact refers_floats computed
    · exact refers_multiply leftRefers rightRefers computed
  | divide =>
    simp only [binaryDefined] at computed
    split at computed
    · exact refers_floats computed
    · exact refers_divide computed
  | and => exact refers_logic computed
  | or => exact refers_logic computed
  | xor => exact refers_logic computed
  | shiftLeft => exact refers_logic computed
  | shiftRight => exact refers_logic computed

end Value

end CrayAssembler
