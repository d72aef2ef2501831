import CrayAssembler.Proofs.Symbol.Persistence
import CrayAssembler.Value.Arithmetic

namespace CrayAssembler

namespace Value

/-- A value that is not marked as an address in a relocatable module. -/
def Rigid (value : Value) : Prop :=
  value.attributes.relocatable = false

instance (value : Value) : Decidable value.Rigid :=
  inferInstanceAs (Decidable (_ = _))

variable {value left right : Value}

theorem rigid_absolute (n : Word) : (absolute n).Rigid := rfl

theorem rigid_float (x : Double) : (float x).Rigid := rfl

theorem rigid_undefined : undefined.Rigid := rfl

/-- Nothing but the mark counts. -/
theorem Rigid.of_same {other : Value} (rigid : value.Rigid)
    (same : other.attributes.relocatable = value.attributes.relocatable) : other.Rigid :=
  same.trans rigid

theorem Rigid.isRelocatable (rigid : value.Rigid) : value.isRelocatable = false := by
  unfold Value.isRelocatable
  rw [rigid]
  rfl

/-- The address of such a value is relative to no section. -/
theorem Rigid.base (rigid : value.Rigid) (id : SectionId) : value.base ≠ .inSection id := by
  unfold Value.base
  rw [rigid.isRelocatable]
  split
  · exact nofun
  · exact nofun

theorem Rigid.convert (rigid : value.Rigid) (kind : AddressKind) : (value.convert kind).Rigid :=
  rigid.of_same rfl

theorem Rigid.negate (rigid : value.Rigid) {result : Value}
    (negated : value.negate = .ok result) : result.Rigid := by
  unfold Value.negate at negated
  split at negated
  · cases negated
    exact rigid_float _
  split at negated
  · nomatch negated
  · cases negated
    exact rigid.of_same rfl

/-- A plain number that some computation gives. -/
theorem rigid_plain {α : Type} {number : Except ErrorKind α} {f : α → Word} {result : Value}
    (made : (do return absolute (f (← number))) = Except.ok result) : result.Rigid := by
  cases number with
  | error kind => nomatch made
  | ok n =>
    cases made
    exact rigid_absolute _

theorem Rigid.unary (op : UnaryOp) (rigid : value.Rigid) {result : Value}
    (computed : Value.unary op value = .ok result) : result.Rigid := by
  have masked {f : Nat → Word}
      (made : (do return absolute (f (← maskWidth (← value.bits)))) = Except.ok result) :
      result.Rigid := by
    cases bits : value.bits with
    | error kind => rw [bits] at made; nomatch made
    | ok n =>
      rw [bits] at made
      exact rigid_plain made
  unfold Value.unary at computed
  split at computed
  · cases computed
    exact rigid_undefined
  cases op with
  | plus =>
    cases computed
    exact rigid
  | minus => exact rigid.negate computed
  | complement => exact rigid_plain computed
  | maskLeft => exact masked computed
  | maskRight => exact masked computed
  | complementMaskLeft => exact masked computed
  | complementMaskRight => exact masked computed
  | parcelAddress =>
    cases computed
    exact rigid.convert .parcel
  | wordAddress =>
    cases computed
    exact rigid.convert .word

/-- A sum is relative to a section only if one of its parts is. -/
theorem Rigid.sumBase (leftRigid : left.Rigid) (rightRigid : right.Rigid) {subtract : Bool}
    {coefficient : Int64} (id : SectionId) :
    Value.sumBase left right subtract ≠ .ok (.inSection id, coefficient) := by
  intro summed
  have first := leftRigid.base
  have second := rightRigid.base
  unfold Value.sumBase at summed
  dsimp only at summed
  split at summed
  case h_4 found _ => exact first _ found
  case h_5 _ found => exact second _ found
  case h_6 found _ => exact first _ found
  case h_3 => split at summed <;> nomatch summed
  all_goals nomatch summed

theorem rigid_addAligned (leftRigid : left.Rigid) (rightRigid : right.Rigid) {subtract : Bool}
    {result : Value} (added : addAligned left right subtract = .ok result) : result.Rigid := by
  unfold addAligned at added
  dsimp only at added
  cases summed : sumBase left right subtract with
  | error kind => rw [summed] at added; nomatch added
  | ok found =>
    obtain ⟨base, coefficient⟩ := found
    cases base with
    | inSection id => exact absurd summed (leftRigid.sumBase rightRigid id)
    | external index =>
      rw [summed] at added
      cases added
      rfl
    | absolute =>
      rw [summed] at added
      cases added
      rfl

theorem rigid_add (leftRigid : left.Rigid) (rightRigid : right.Rigid) {subtract : Bool}
    {outcome : Outcome} (added : add left right subtract = .ok outcome) : outcome.value.Rigid := by
  unfold add at added
  dsimp only at added
  split at added
  · split at added
    · nomatch added
    · cases added
      exact rigid_float _
  · have aligned : ∀ {kind : AddressKind} {mixed : Bool},
        (if mixed then right.convert kind else right).Rigid := by
      intro kind mixed
      cases mixed
      · exact rightRigid
      · exact rightRigid.convert kind
    cases summed : addAligned left _ subtract with
    | error kind => rw [summed] at added; nomatch added
    | ok result =>
      rw [summed] at added
      cases added
      exact rigid_addAligned leftRigid aligned summed

theorem rigid_divide {outcome : Outcome} (divided : divide left right = .ok outcome) :
    outcome.value.Rigid := by
  unfold divide at divided
  dsimp only at divided
  split at divided
  · nomatch divided
  split at divided
  · nomatch divided
  · cases divided
    rfl

theorem rigid_multiply (leftRigid : left.Rigid) (rightRigid : right.Rigid) {outcome : Outcome}
    (multiplied : multiply left right = .ok outcome) : outcome.value.Rigid := by
  unfold multiply at multiplied
  dsimp only at multiplied
  split at multiplied <;> cases multiplied
  · rfl
  · exact leftRigid.of_same rfl
  · exact rightRigid.of_same rfl

theorem rigid_floats {isQuotient : Bool} {outcome : Outcome}
    (multiplied : (multiplyFloats left right isQuotient).map .plain = .ok outcome) :
    outcome.value.Rigid := by
  have float {result : Value} (made : multiplyFloats left right isQuotient = .ok result) :
      result.Rigid := by
    unfold multiplyFloats at made
    cases isQuotient <;> simp only [Bool.false_eq_true, if_false, if_true] at made
    · split at made
      · nomatch made
      · cases made
        exact rigid_float _
    · split at made
      · nomatch made
      split at made
      · nomatch made
      · cases made
        exact rigid_float _
  cases result : multiplyFloats left right isQuotient with
  | error kind => rw [result] at multiplied; nomatch multiplied
  | ok value =>
    rw [result] at multiplied
    cases multiplied
    exact float result

theorem rigid_logic {combine : Word → Word → Word} {outcome : Outcome}
    (combined : logic left right combine = .ok outcome) : outcome.value.Rigid := by
  unfold logic at combined
  split at combined
  · nomatch combined
  cases first : left.bits with
  | error kind => rw [first] at combined; nomatch combined
  | ok n =>
    cases second : right.bits with
    | error kind => rw [first, second] at combined; nomatch combined
    | ok m =>
      rw [first, second] at combined
      cases combined
      rfl

theorem Rigid.binary (op : BinaryOp) (leftRigid : left.Rigid) (rightRigid : right.Rigid)
    {outcome : Outcome} (computed : Value.binary op left right = .ok outcome) :
    outcome.value.Rigid := by
  unfold Value.binary at computed
  split at computed
  · cases computed
    exact rigid_undefined
  cases op with
  | add => exact rigid_add leftRigid rightRigid computed
  | subtract => exact rigid_add leftRigid rightRigid computed
  | multiply =>
    simp only [binaryDefined] at computed
    split at computed
    · exact rigid_floats computed
    · exact rigid_multiply leftRigid rightRigid computed
  | divide =>
    simp only [binaryDefined] at computed
    split at computed
    · exact rigid_floats computed
    · exact rigid_divide computed
  | and => exact rigid_logic computed
  | or => exact rigid_logic computed
  | xor => exact rigid_logic computed
  | shiftLeft => exact rigid_logic computed
  | shiftRight => exact rigid_logic computed

end Value

namespace SymbolTable

/-- No symbol holds a relocatable address. -/
def Rigid (table : SymbolTable) : Prop :=
  ∀ key, (table.value key).Rigid

variable {table changed : SymbolTable}

/-- Only symbols that the table holds count. -/
theorem rigid_iff_toList : table.Rigid ↔ ∀ entry ∈ table.toList, entry.2.Rigid := by
  constructor
  · intro rigid entry member
    have found : table.get? entry.1 = some entry.2 :=
      Std.TreeMap.mem_toList_iff_getElem?_eq_some.mp member
    have held := rigid entry.1
    unfold value at held
    rwa [found] at held
  · intro rigid key
    unfold value
    cases found : table.get? key with
    | none => exact Value.rigid_undefined
    | some held => exact rigid (key, held) (Std.TreeMap.mem_toList_iff_getElem?_eq_some.mpr found)

instance (table : SymbolTable) : Decidable table.Rigid :=
  decidable_of_iff _ rigid_iff_toList.symm

theorem lasting_rigid : Value.Lasting Value.Rigid where
  undefined := Value.rigid_undefined
  external _ := rfl
  same rigid bare := rigid.of_same (congrArg (·.attributes.relocatable) bare)
  moved _ _ rigid := rigid.of_same rfl

theorem Rigid.mention (rigid : table.Rigid) (key : SymbolKey) : (table.mention key).Rigid :=
  Each.mention rigid key

theorem Rigid.markEntry (rigid : table.Rigid) (key : SymbolKey) : (table.markEntry key).Rigid :=
  Each.markEntry lasting_rigid rigid key

theorem Rigid.define (rigid : table.Rigid) {key : SymbolKey} {new : Value} (fixed : new.Rigid)
    {redefinable : Bool} {pass : Pass}
    (made : table.define key new redefinable pass = .ok changed) : changed.Rigid :=
  Each.define lasting_rigid rigid fixed made

theorem Rigid.makeExternal (rigid : table.Rigid) {key : SymbolKey} {index : Nat}
    (made : table.makeExternal key index = .ok changed) : changed.Rigid :=
  Each.makeExternal lasting_rigid rigid made

theorem Rigid.adjust (rigid : table.Rigid) (offset : SectionId → Nat) :
    (table.adjust offset).Rigid :=
  Each.adjust lasting_rigid rigid offset

end SymbolTable

end CrayAssembler
