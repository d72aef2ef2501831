import CrayAssembler.Assembly.Directive.Condition
import CrayAssembler.Proofs.Expr.WellFormed
import CrayAssembler.Proofs.Value.Immobile
import CrayAssembler.Proofs.Value.Refers

namespace CrayAssembler

open Value (Sketch)

/-- The sketch of an expression over numbers and labels with known units. There is none where a
conversion does not do the same in both kinds of modules. -/
def Expr.sketch? (units : Name → Option AddressKind) : Expr → Option Sketch
  | .symbol name => (units name).map .label
  | .number _ | .based _ | .string _ => some .plain
  | .location _ | .literal .. => none
  | .unary op operand => do (← operand.sketch? units).unary op
  | .binary op left right => do (← left.sketch? units).binary op (← right.sketch? units)
  | .group inner => inner.sketch? units

/-- An expression over numbers and labels of one unit that asks for no other. -/
def Expr.Uniform (units : Name → Option AddressKind) (kind : AddressKind) : Expr → Prop
  | .symbol name => units name = some kind
  | .number _ | .based _ | .string _ => True
  | .location _ | .literal .. => False
  | .unary op operand => op.target? = none ∧ operand.Uniform units kind
  | .binary _ left right => left.Uniform units kind ∧ right.Uniform units kind
  | .group inner => inner.Uniform units kind

theorem Expr.sketch?_of_uniform {units : Name → Option AddressKind} {kind : AddressKind}
    {expr : Expr} (uniform : expr.Uniform units kind) :
    ∃ sketch, expr.sketch? units = some sketch ∧ sketch.Keeps kind := by
  induction expr with
  | symbol name => exact ⟨_, congrArg (Option.map Sketch.label) uniform, Sketch.keeps_label⟩
  | number | based | string => exact ⟨.plain, rfl, Sketch.keeps_plain⟩
  | location => exact absurd uniform not_false
  | unary op operand ih =>
    obtain ⟨stays, rest⟩ := uniform
    obtain ⟨sketch, known, keeps⟩ := ih rest
    obtain ⟨after, applied, kept⟩ := keeps.unary stays
    exact ⟨after, Option.bind_eq_some_iff.mpr ⟨sketch, known, applied⟩, kept⟩
  | binary op left right leftIh rightIh =>
    obtain ⟨first, leftKnown, leftKeeps⟩ := leftIh uniform.1
    obtain ⟨second, rightKnown, rightKeeps⟩ := rightIh uniform.2
    obtain ⟨after, applied, kept⟩ := leftKeeps.binary op rightKeeps
    exact ⟨after, Option.bind_eq_some_iff.mpr ⟨first, leftKnown,
      Option.bind_eq_some_iff.mpr ⟨second, rightKnown, applied⟩⟩, kept⟩
  | group inner ih => exact ih uniform
  | literal => exact absurd uniform not_false

/-- Surroundings in which labels of a section are relocatable, and such in which they are immobile at
the same addresses. -/
structure Surroundings.Grounded {σ τ : Type} (id : SectionId) (units : Name → Option AddressKind)
    (R : σ → τ → Prop) (env : Surroundings (StateM σ)) (ground : Surroundings (StateM τ)) :
    Prop where
  address : ∀ name kind, units name = some kind → kind ≠ .value
  symbol : ∀ name kind, units name = some kind →
    Answers R (env.symbol name) (ground.symbol name) fun found other =>
      other.forward = found.forward ∧ ∃ n, found.value.bare = .address kind id n true ∧
        other.value.bare = .address kind id n false
  radix : Answers R env.radix ground.radix (· = ·)

namespace Eval

section Leaves

variable {σ : Type} {value : Value} {place later : Progress × σ}

/-- A number without a fraction is the same wherever it is read. -/
theorem absolute_of_numeral (τ : Type) {text : String} {radix : Nat}
    (yields : Yields (numeral text radix) place value later) (integer : value.isFloat = false) :
    ∃ n, value = .absolute n ∧ place = later ∧
      ∀ there : Progress × τ, Yields (numeral text radix) there value there := by
  unfold numeral at yields ⊢
  split at yields
  case h_1 n _ =>
    obtain ⟨rfl, rfl⟩ := yields_pure.mp yields
    exact ⟨n, rfl, rfl, fun _ => yields_pure.mpr ⟨rfl, rfl⟩⟩
  case h_2 x _ =>
    obtain ⟨rfl, rfl⟩ := yields_pure.mp yields
    nomatch integer
  case h_3 => exact absurd yields not_yields_throw

theorem absolute_of_characters (τ : Type) {constant : CharConstant}
    (yields : Yields (characters constant) place value later) :
    ∃ n, value = .absolute n ∧ place = later ∧
      ∀ there : Progress × τ, Yields (characters constant) there value there := by
  unfold characters at yields ⊢
  split at yields
  case h_1 =>
    obtain ⟨rfl, rfl⟩ := yields_pure.mp yields
    exact ⟨0, rfl, rfl, fun _ => yields_pure.mpr ⟨rfl, rfl⟩⟩
  case h_2 word _ =>
    obtain ⟨rfl, rfl⟩ := yields_pure.mp yields
    exact ⟨word, rfl, rfl, fun _ => yields_pure.mpr ⟨rfl, rfl⟩⟩
  case h_3 => exact absurd yields not_yields_throw

/-- A binary operator notes a warning at most. -/
theorem yields_of_outcome {op : BinaryOp} {left right : Value} {outcome : Value.Outcome}
    (computed : Value.binary op left right = .ok outcome) (place : Progress × σ) :
    ∃ later, Yields (binary op left right) place outcome.value later ∧
      later.1.forward = place.1.forward ∧ later.2 = place.2 := by
  obtain ⟨result, mixed⟩ := outcome
  unfold binary
  rw [computed]
  cases mixed with
  | false => exact ⟨place, yields_pure.mpr ⟨rfl, rfl⟩, rfl, rfl⟩
  | true =>
    have warned : Yields (warn .expressionElement) place ⟨⟩ _ := yields_modify.mpr rfl
    exact ⟨_, yields_bind.mpr ⟨⟨⟩, _, warned, yields_pure.mpr ⟨rfl, rfl⟩⟩, yields_warn warned⟩

end Leaves

section Trees

variable {σ τ : Type} {id : SectionId} {units : Name → Option AddressKind} {R : σ → τ → Prop}
  {env : Surroundings (StateM σ)} {ground : Surroundings (StateM τ)} {value : Value}

/-- Two evaluations have come equally far; their warnings may differ. -/
def Beside (R : σ → τ → Prop) (place : Progress × σ) (there : Progress × τ) : Prop :=
  there.1.forward = place.1.forward ∧ R place.2 there.2

/-- In the other module a value is read that fits with it. -/
def Settles (id : SectionId) (R : σ → τ → Prop) (read : EvalM (StateM τ) Value) (sketch : Sketch)
    (there : Progress × τ) (value : Value) (later : Progress × σ) : Prop :=
  ∃ settled after, Yields read there settled after ∧ Beside R later after ∧
    sketch.Fits id value settled

theorem settles_symbol (grounded : env.Grounded id units R ground) {name : Name} {sketch : Sketch}
    (sketched : (Expr.symbol name).sketch? units = some sketch) {place later : Progress × σ}
    {there : Progress × τ} (beside : Beside R place there)
    (yields : Yields (symbol env name) place value later) :
    Settles id R (symbol ground name) sketch there value later := by
  obtain ⟨kind, unit, rfl⟩ := Option.map_eq_some_iff.mp sketched
  obtain ⟨⟨forward, n, labelled, grounding⟩, related⟩ :=
    grounded.symbol name kind unit place.2 there.2 beside.2
  obtain ⟨found, middle, question, answer⟩ := yields_bind.mp yields
  obtain ⟨rfl, rfl⟩ := yields_lift.mp question
  obtain ⟨used, rfl⟩ := yields_use.mp answer
  refine ⟨_, _, yields_bind.mpr ⟨_, _, yields_lift.mpr ⟨rfl, rfl⟩, yields_use.mpr ⟨rfl, rfl⟩⟩,
    ⟨?_, related⟩, ?_⟩
  · show (there.1.forward || _) = (place.1.forward || _)
    rw [beside.1, forward]
  · rw [← used]
    show (Sketch.label kind).Fits id (Value.bare _) (Value.bare _)
    rw [labelled, grounding]
    exact Value.fits_label (grounded.address name kind unit) n

theorem settles_number (grounded : env.Grounded id units R ground) {text : String}
    {place later : Progress × σ} {there : Progress × τ} (beside : Beside R place there)
    (yields : Yields (number env text) place value later) (integer : value.isFloat = false) :
    Settles id R (number ground text) .plain there value later := by
  obtain ⟨same, related⟩ := grounded.radix place.2 there.2 beside.2
  obtain ⟨radix, middle, question, answer⟩ := yields_bind.mp yields
  obtain ⟨rfl, rfl⟩ := yields_lift.mp question
  obtain ⟨n, rfl, rfl, anywhere⟩ := absolute_of_numeral τ answer integer
  refine ⟨.absolute n, (there.1, (ground.radix.run there.2).2), yields_bind.mpr
    ⟨_, _, yields_lift.mpr ⟨rfl, rfl⟩, ?_⟩, ⟨beside.1, related⟩, Value.fits_plain n⟩
  show Yields (numeral text (ground.radix.run there.2).1) _ _ _
  rw [← same]
  exact anywhere _

/-- Along the tree both values fit with the sketch. -/
theorem settles_tree (grounded : env.Grounded id units R ground) {expr : Expr} {sketch : Sketch}
    (sketched : expr.sketch? units = some sketch) {place later : Progress × σ}
    {there : Progress × τ} (beside : Beside R place there)
    (yields : Yields (tree env expr) place value later) (integer : value.isFloat = false)
    (defined : value.isUndefined = false) :
    Settles id R (tree ground expr) sketch there value later := by
  -- That the value is a defined integer goes down the tree: no operator makes one of anything else.
  induction expr generalizing sketch place later there value with
  | symbol name => exact settles_symbol grounded sketched beside yields
  | number text =>
    cases sketched
    exact settles_number grounded beside yields integer
  | based n =>
    cases sketched
    obtain ⟨rfl, rfl⟩ := yields_pure.mp yields
    exact ⟨_, there, yields_pure.mpr ⟨rfl, rfl⟩, beside, Value.fits_plain n⟩
  | string constant =>
    cases sketched
    obtain ⟨n, rfl, rfl, anywhere⟩ := absolute_of_characters τ yields
    exact ⟨_, there, anywhere there, beside, Value.fits_plain n⟩
  | location counter => nomatch sketched
  | unary op operand ih =>
    obtain ⟨before, known, applied⟩ := Option.bind_eq_some_iff.mp sketched
    obtain ⟨part, middle, first, last⟩ := yields_bind.mp yields
    obtain ⟨computed, rfl⟩ := yields_unary.mp last
    have partDefined := (Value.isUndefined_unary computed).symm.trans defined
    have partInteger := Value.isFloat_of_unary computed partDefined integer
    obtain ⟨partSettled, between, read, joined, fits⟩ :=
      ih known beside first partInteger partDefined
    obtain ⟨settled, same, result⟩ := fits.unary applied computed
    exact ⟨settled, between, yields_bind.mpr ⟨_, _, read, yields_unary.mpr ⟨same, rfl⟩⟩, joined,
      result⟩
  | binary op left right leftIh rightIh =>
    obtain ⟨leftSketch, leftKnown, rest⟩ := Option.bind_eq_some_iff.mp sketched
    obtain ⟨rightSketch, rightKnown, applied⟩ := Option.bind_eq_some_iff.mp rest
    obtain ⟨leftValue, middle, leftYields, remaining⟩ := yields_bind.mp yields
    obtain ⟨rightValue, between, rightYields, last⟩ := yields_bind.mp remaining
    obtain ⟨⟨mixed, computed⟩, forward, state⟩ := outcome_of_yields last
    have bothDefined := (Value.isUndefined_binary computed).symm.trans defined
    obtain ⟨leftInteger, rightInteger⟩ := Value.isFloat_of_binary computed bothDefined integer
    obtain ⟨leftDefined, rightDefined⟩ := Bool.or_eq_false_iff.mp bothDefined
    obtain ⟨leftSettled, leftAfter, leftRead, leftBeside, leftFits⟩ :=
      leftIh leftKnown beside leftYields leftInteger leftDefined
    obtain ⟨rightSettled, rightAfter, rightRead, rightBeside, rightFits⟩ :=
      rightIh rightKnown leftBeside rightYields rightInteger rightDefined
    -- One of the modules may warn of mixed kinds where the other does not.
    obtain ⟨outcome, same, result⟩ := leftFits.binary rightFits applied computed
    obtain ⟨after, given, noted, kept⟩ := yields_of_outcome same rightAfter
    refine ⟨outcome.value, after, yields_bind.mpr ⟨_, _, leftRead, yields_bind.mpr
      ⟨_, _, rightRead, given⟩⟩, ⟨?_, ?_⟩, result⟩
    · rw [noted, forward, rightBeside.1]
    · rw [kept, state]
      exact rightBeside.2
  | group inner ih => exact ih sketched beside yields integer defined
  | literal key operand => nomatch sketched

end Trees

end Eval

/-- What the sketch of an expression that is a constant in a relocatable module tells of its value in
an absolute one. -/
structure Value.Sketch.Tells (sketch : Sketch) (id : SectionId) (constant settled : Value) :
    Prop where
  numeric : settled.numeric = constant.numeric
  isConstant : settled.isConstant = !sketch.placed
  addressKind : settled.addressKind = sketch.unit
  /-- A symbol with this value is moved before pass 2 if it belongs to the section. -/
  displaced : ∀ offset, SymbolTable.displace offset settled =
    if sketch.placed then
      { settled with numeric := settled.numeric + UInt64.ofNat (offset id * sketch.unit.perWord) }
    else settled
  /-- It can then not be compared with numbers either. -/
  compared : ∀ n, Asm.compareDefined settled (.absolute n) =
    if sketch.placed then .error .relocatableField else Asm.compareDefined constant (.absolute n)

theorem Value.Sketch.Fits.tells {sketch : Sketch} {id : SectionId} {constant settled : Value}
    (fits : sketch.Fits id constant settled) (plain : constant.isConstant = true) :
    sketch.Tells id constant settled where
  numeric := fits.numeric
  isConstant := fits.isConstant
  addressKind := fits.unit
  displaced := fits.displace
  compared n := by
    obtain ⟨⟨homeless, -, -⟩, -⟩ := Value.isConstant_iff.mp plain
    unfold Asm.compareDefined
    rw [fits.others.isExternal, fits.ours.isExternal, fits.others.isFloat, fits.ours.isFloat,
      fits.home, homeless, fits.numeric]
    cases sketch.placed <;> rfl

/-- An expression over numbers and labels of one section that is a plain number in a relocatable module
has the same number in an absolute one, if it has a sketch; it has one if its labels are of one unit
and it asks for no other. In an absolute module it is a plain number of the unit that the sketch
gives, unless the sketch says that it belongs to the section: then it moves with the section and
cannot be compared with numbers. -/
theorem Expr.evaluate_immobile {σ τ : Type} {id : SectionId} {units : Name → Option AddressKind}
    {R : σ → τ → Prop} {env : Surroundings (StateM σ)} {ground : Surroundings (StateM τ)}
    {expr : Expr} {here later : σ} {there : τ} {constant : Evaluation}
    (grounded : env.Grounded id units R ground) (related : R here there)
    (evaluated : (expr.evaluate env).run here = (.ok constant, later))
    (plain : constant.value.isConstant = true) :
    (∀ kind, expr.Uniform units kind → ∃ sketch, expr.sketch? units = some sketch) ∧
    ∀ sketch, expr.sketch? units = some sketch →
      ∃ settled after, (expr.evaluate ground).run there = (.ok settled, after) ∧ R later after ∧
        settled.forward = constant.forward ∧ sketch.Tells id constant.value settled.value := by
  refine ⟨fun kind uniform => ?_, fun sketch sketched => ?_⟩
  · obtain ⟨sketch, sketched, -⟩ := Expr.sketch?_of_uniform uniform
    exact ⟨sketch, sketched⟩
  · obtain ⟨progress, yields, forward, -⟩ := Eval.collect_run.mp evaluated
    rw [Eval.run_steps] at yields
    obtain ⟨⟨-, -, defined⟩, integer⟩ := Value.isConstant_iff.mp plain
    have start : Eval.Beside R (({}, here) : Eval.Progress × σ) ({}, there) := ⟨rfl, related⟩
    obtain ⟨settled, ⟨noticed, after⟩, read, ⟨same, final⟩, fits⟩ :=
      Eval.settles_tree grounded sketched start yields integer defined
    rw [← Eval.run_steps] at read
    exact ⟨⟨settled, noticed.forward, noticed.warnings⟩, after,
      Eval.collect_run.mpr ⟨noticed, read, rfl, rfl⟩, final, same.trans forward, fits.tells plain⟩

section Sample

/-- The unit and the number of a label: `P` is a parcel, and `L` comes a word after the others. -/
def sampleSpot (name : Name) : AddressKind × Word :=
  if name.name = "P" then (.parcel, 6) else if name.name = "L" then (.word, 1) else (.word, 0)

/-- Surroundings in which every symbol is a label of section 3. -/
def sampleLabels (relocatable : Bool) : Surroundings (StateM Unit) where
  symbol name := return ⟨.address (sampleSpot name).1 3 (sampleSpot name).2 relocatable, false⟩
  counter _ := return .absolute 0
  literal _ _ := return .error .expression
  radix := return 8

theorem grounded_sampleLabels :
    (sampleLabels true).Grounded 3 (fun name => some (sampleSpot name).1) (fun _ _ => True)
      (sampleLabels false) where
  address name kind unit := by
    cases unit
    unfold sampleSpot
    split
    · exact nofun
    · split <;> exact nofun
  symbol name kind unit _ _ _ := by
    cases unit
    exact ⟨⟨rfl, (sampleSpot name).2, rfl, rfl⟩, trivial⟩
  radix _ _ _ := ⟨rfl, trivial⟩

/-- Twice the low bits of the distance from a word to a parcel. -/
def sampleDistance : Expr :=
  .binary .multiply (.based 2) (.group (.binary .and
    (.group (.binary .subtract (.symbol ⟨none, "P"⟩) (.unary .parcelAddress (.symbol ⟨none, "L"⟩))))
    (.based 7)))

theorem Expr.evaluate_immobile_sampleDistance :
    (sampleDistance.evaluate (sampleLabels true)).run () = (.ok ⟨.absolute 4, false, []⟩, ()) ∧
      sampleDistance.sketch? (fun name => some (sampleSpot name).1) = some ⟨[.value], false, .value, false⟩ ∧
      ∃ settled, (sampleDistance.evaluate (sampleLabels false)).run () = (.ok settled, ()) ∧
        settled.value.isConstant = true ∧ settled.value.numeric = 4 := by
  have evaluated : (sampleDistance.evaluate (sampleLabels true)).run () =
      (.ok ⟨.absolute 4, false, []⟩, ()) := rfl
  have sketched : sampleDistance.sketch? (fun name => some (sampleSpot name).1) =
      some ⟨[.value], false, .value, false⟩ := rfl
  obtain ⟨settled, _, ground, -, -, tells⟩ :=
    (Expr.evaluate_immobile grounded_sampleLabels trivial evaluated rfl).2 _ sketched
  exact ⟨evaluated, sketched, settled, ground, tells.isConstant, tells.numeric⟩

/-- The distance between two words of a section. -/
def sampleDifference : Expr :=
  .binary .subtract (.symbol ⟨none, "L"⟩) (.symbol ⟨none, "K"⟩)

/-- The difference of two relocatable words is a plain number. That of the same words in an absolute
module is an address, moves with their section and cannot be compared with a number. -/
theorem Expr.evaluate_sampleDifference :
    (sampleDifference.evaluate (sampleLabels true)).run () = (.ok ⟨.absolute 1, false, []⟩, ()) ∧
      (Value.absolute 1).isConstant = true ∧
      ∃ settled : Value, (sampleDifference.evaluate (sampleLabels false)).run () =
          (.ok ⟨settled, false, []⟩, ()) ∧
        settled.isConstant = false ∧ settled.addressKind = .word ∧
        (SymbolTable.displace (fun _ => 10) settled).numeric = 11 ∧
        Asm.compareDefined settled (.absolute 1) = .error .relocatableField :=
  ⟨rfl, rfl,
    { attributes := { wordAddress := true, immobile := true }, home := some 3, numeric := 1 },
    rfl, rfl, rfl, rfl, rfl⟩

end Sample

end CrayAssembler
