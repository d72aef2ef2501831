import CrayAssembler.Proofs.Assembly.Conditions
import CrayAssembler.Proofs.Expr.WellFormed

namespace CrayAssembler

namespace Eval

open Asm (Glance surroundings)

variable {context later : Context} {expr : Expr}

/-- An expression without literals leaves mentions behind, and a symbol without a value is among its
answers. -/
theorem answers_wanting (plain : expr.All (fun _ => True) fun _ => True)
    (glance : Glance context later) :
    Glance context ((answers surroundings expr).run later).2 ∧
      (¬expr.All (fun name => (context.lookup name).isUndefined = false) (fun _ => True) →
        ((answers surroundings expr).run later).1.any (·.value.isUndefined)) := by
  induction expr generalizing later with
  | symbol name =>
    have answer : (answers surroundings (.symbol name)).run later =
        ([⟨later.lookup name, !Asm.definedInPass (later.lookup name) later.pass⟩],
          later.mention (later.keyOf name)) := by
      change ((Asm.symbol name).run later).map (fun found => [found]) id = _
      rw [Asm.run_symbol]
      rfl
    rw [answer]
    refine ⟨glance.trans (.mention ..), fun wanting => ?_⟩
    have undefined := (Bool.not_eq_false _).mp wanting
    have blank : (later.lookup name).isUndefined = true := by
      rcases glance.lookup name with same | ⟨-, lost⟩
      · rw [same]
        exact undefined
      · rw [lost]
        rfl
    change ((later.lookup name).isUndefined || false) = true
    rw [blank, Bool.true_or]
  | location place =>
    have stays : ((answers surroundings (.location place)).run later).2 = later := by
      cases place <;> rfl
    rw [stays]
    exact ⟨glance, fun wanting => absurd trivial wanting⟩
  | unary op operand ih => exact ih plain glance
  | binary op left right leftIh rightIh =>
    obtain ⟨first, second⟩ := plain
    obtain ⟨middle, inLeft⟩ := leftIh first glance
    obtain ⟨last, inRight⟩ := rightIh second middle
    refine ⟨last, fun wanting => ?_⟩
    change List.any (_ ++ _) _ = true
    rw [List.any_append, Bool.or_eq_true]
    by_cases known : left.All (fun name => (context.lookup name).isUndefined = false) fun _ => True
    · exact .inr (inRight fun knownToo => wanting ⟨known, knownToo⟩)
    · exact .inl (inLeft known)
  | group inner ih => exact ih plain glance
  | literal key operand => nomatch plain
  | _ => exact ⟨glance, fun wanting => absurd trivial wanting⟩

end Eval

namespace Asm

/-- All that operands without literals can ask. -/
def Scope.plain (settings : Settings) : Scope where
  settings := settings
  symbol _ := True
  counter _ := True

instance (settings : Settings) : DecidablePred (Scope.plain settings).symbol :=
  fun _ => .isTrue trivial

instance (settings : Settings) : DecidablePred (Scope.plain settings).counter :=
  fun _ => .isTrue trivial

/-- What an operand is in a context. -/
def reading (context : Context) (text : String) : Option Evaluation :=
  ((evaluateOperand text).run context).1

/-- An operand without a value. -/
def Hollow (reading : Option Evaluation) : Prop :=
  ∀ evaluation ∈ reading, evaluation.value.isUndefined

section Readings

variable {context later : Context} {text : String}

theorem hollow_of_wanting {expr : Expr} (parsed : operandExpr? context.settings text = some expr)
    (plain : expr.All (fun _ => True) fun _ => True)
    (wanting : ¬expr.All (fun name => (context.lookup name).isUndefined = false) fun _ => True)
    (glance : Glance context later) : Hollow (reading later text) := by
  rintro evaluation found
  unfold reading at found
  rw [run_evaluateOperand, glance.settings, parsed] at found
  dsimp only at found
  rw [run_evaluateExpr] at found
  rcases run : (expr.evaluate surroundings).run later with ⟨_ | result, after⟩
  · rw [run] at found
    nomatch found
  rw [run] at found
  cases found
  obtain ⟨progress, yields, -⟩ := Eval.collect_run.mp run
  rw [Eval.run_steps] at yields
  rw [(Eval.drawn_tree yields).stems.isUndefined]
  exact (Eval.answers_wanting plain glance).2 wanting

/-- An operand is read alike after other operands, or has no value in both places. -/
theorem reading_later (covers : (Scope.plain context.settings).Covers text)
    (glance : Glance context later) :
    reading later text = reading context text ∨
      Hollow (reading later text) ∧ Hollow (reading context text) := by
  let known : Scope := ⟨context.settings, fun name => (context.lookup name).isUndefined = false,
    fun _ => True⟩
  by_cases inside : known.Covers text
  · have matching : Matching known context context :=
      { settings := rfl
        others := rfl
        skip := rfl
        radix := rfl
        names := fun name defined => ⟨rfl, rfl, fun undefined => by
          rw [show (context.lookup name).isUndefined = false from defined] at undefined
          nomatch undefined⟩
        counters := fun _ _ => rfl }
    exact .inl (together_evaluateOperand inside later context (matching.glance glance)).1
  · obtain ⟨expr, parsed, wanting⟩ : ∃ expr, operandExpr? context.settings text = some expr ∧
        ¬expr.All known.symbol known.counter := by
      simpa only [Scope.Covers, not_forall, exists_prop] using inside
    have plain := covers expr parsed
    exact .inr ⟨hollow_of_wanting parsed plain wanting glance,
      hollow_of_wanting parsed plain wanting (.refl context)⟩

end Readings

/-- The order of two operands, if they can be compared. -/
def comparison : Option Evaluation → Option Evaluation → Option Ordering
  | some left, some right =>
    if left.forward || right.forward then none
    else if left.value.isUndefined || right.value.isUndefined then none
    else (compareDefined left.value right.value).toOption.join
  | _, _ => none

/-- An operand is an address in a section. -/
def Placed (reading : Option Evaluation) : Prop :=
  ∃ evaluation ∈ reading, evaluation.value.home.isSome

instance (reading : Option Evaluation) : Decidable (Placed reading) :=
  inferInstanceAs (Decidable (∃ evaluation ∈ reading, evaluation.value.home.isSome))

section Comparison

variable {left right : Option Evaluation}

theorem comparison_of_hollow (hollow : Hollow left ∨ Hollow right) :
    comparison left right = none := by
  rcases left with _ | left
  · rfl
  rcases right with _ | right
  · rfl
  have undefined : (left.value.isUndefined || right.value.isUndefined) = true := by
    rcases hollow with inLeft | inRight
    · rw [inLeft left rfl, Bool.true_or]
    · rw [inRight right rfl, Bool.or_true]
  dsimp only [comparison]
  rw [if_pos undefined, ite_self]

theorem compare?_swap (x y : Double) : y.compare? x = (x.compare? y).map Ordering.swap := by
  unfold Double.compare?
  rw [Bool.or_comm]
  split
  · rfl
  · rw [Option.map_some, ← Std.OrientedCmp.eq_swap]

/-- Two values are compared alike in both orders if both or neither are in a section. -/
theorem compareDefined_swap {a b : Value} (both : a.home.isSome = b.home.isSome) :
    (compareDefined b a).toOption.join = (compareDefined a b).toOption.join.map Ordering.swap := by
  have sections : (b.home.isSome && b.home ≠ a.home) = (a.home.isSome && a.home ≠ b.home) := by
    rw [both, show decide (b.home ≠ a.home) = decide (a.home ≠ b.home) from
      decide_eq_decide.mpr ne_comm]
  unfold compareDefined
  rw [sections, Bool.or_comm b.isExternal, Bool.or_comm b.isFloat]
  split
  · rfl
  split
  · exact compare?_swap _ _
  · exact congrArg some Std.OrientedCmp.eq_swap

theorem comparison_swap (both : Placed left ↔ Placed right) :
    comparison right left = (comparison left right).map Ordering.swap := by
  rcases left with _ | left
  · cases right <;> rfl
  rcases right with _ | right
  · rfl
  have sections : left.value.home.isSome = right.value.home.isSome := by
    rw [Bool.eq_iff_iff]
    simpa only [Placed, Option.mem_some_iff, exists_eq_left'] using both
  dsimp only [comparison]
  rw [Bool.or_comm right.forward, Bool.or_comm right.value.isUndefined]
  split
  · rfl
  split
  · rfl
  · exact compareDefined_swap sections

/-- An address in a section is not compared with a value that is in none. -/
theorem comparison_of_placed (inLeft : Placed left) (inRight : ¬Placed right) :
    comparison left right = none := by
  obtain ⟨left, rfl, homed⟩ := inLeft
  rcases right with _ | right
  · rfl
  have homeless : right.value.home = none := by
    simpa only [Placed, Option.mem_some_iff, exists_eq_left', Option.not_isSome_iff_eq_none]
      using inRight
  have apart : left.value.home ≠ none := Option.isSome_iff_ne_none.mp homed
  have refused : compareDefined left.value right.value = .error .relocatableField := by
    unfold compareDefined
    rw [homeless, homed, decide_eq_true apart, Bool.true_and, Bool.or_true, if_pos rfl]
  dsimp only [comparison]
  rw [refused]
  split
  · rfl
  split <;> rfl

end Comparison

section Orders

variable {context : Context} {left right : String}

/-- A comparison reads the right operand where the left one has left off. -/
theorem run_compareValues (left right : String) (context : Context) :
    ((compareValues left right).run context).1 =
      comparison (reading context left)
        (reading ((evaluateOperand left).run context).2 right) := by
  unfold compareValues reading
  rw [StateT.run_bind]
  rcases (evaluateOperand left).run context with ⟨_ | left, middle⟩
  · rfl
  change ((evaluateOperand right >>= fun right? => _ : AsmM _).run middle).1 = _
  rw [StateT.run_bind]
  dsimp only
  rcases (evaluateOperand right).run middle with ⟨_ | right, last⟩
  · rfl
  change ((if _ then _ else _ : AsmM _).run last).1 = _
  dsimp only [comparison]
  split
  · rfl
  split
  · rfl
  · cases compareDefined left.value right.value <;> rfl

/-- Either operand can be read in the first place. -/
theorem run_compareValues_plain (first : (Scope.plain context.settings).Covers left)
    (second : (Scope.plain context.settings).Covers right) :
    ((compareValues left right).run context).1 =
      comparison (reading context left) (reading context right) := by
  have glance : Glance context ((evaluateOperand left).run context).2 :=
    (first.glanced rfl context context ⟨rfl, .refl context⟩).2.2
  rw [run_compareValues]
  rcases reading_later second glance with same | ⟨hollow, hollowToo⟩
  · rw [same]
  · rw [comparison_of_hollow (.inr hollow), comparison_of_hollow (.inr hollowToo)]

/-- Operands without literals are compared in both orders with opposite results, and so found equal
in both or in neither, if both or neither are addresses in sections. With one such address, they
are not compared when it stands on the left. -/
theorem compareValues_swap (first : (Scope.plain context.settings).Covers left)
    (second : (Scope.plain context.settings).Covers right) :
    ((Placed (reading context left) ↔ Placed (reading context right)) →
      ((compareValues right left).run context).1 =
          ((compareValues left right).run context).1.map Ordering.swap ∧
        ((expressionCondition right "EQ" left).run context).1 =
          ((expressionCondition left "EQ" right).run context).1) ∧
      (Placed (reading context left) → ¬Placed (reading context right) →
        ((compareValues left right).run context).1 = none) := by
  constructor
  · intro both
    have swapped : ((compareValues right left).run context).1 =
        ((compareValues left right).run context).1.map Ordering.swap := by
      rw [run_compareValues_plain first second, run_compareValues_plain second first,
        comparison_swap both]
    refine ⟨swapped, ?_⟩
    rw [run_expressionCondition, run_expressionCondition, swapped]
    rcases ((compareValues left right).run context).1 with _ | _ | _ | _ <;> rfl
  · intro inLeft inRight
    rw [run_compareValues_plain first second, comparison_of_placed inLeft inRight]

end Orders

end Asm

namespace Assembly

/-- Two places of one section and a number. -/
def placesLines : List SourceLine :=
  [⟨1, "         IDENT    M", false⟩, ⟨2, "A        CON      1", false⟩,
    ⟨3, "B        CON      2", false⟩, ⟨4, "N        =        5", false⟩]

theorem compareValues_swap_places :
    let context := passOneAfter placesLines "MAIN" {} ⟨"", "", ""⟩
    ((Asm.compareValues "A" "B").run context).1 = some .lt ∧
      ((Asm.compareValues "B" "A").run context).1 = some .gt ∧
      ((Asm.expressionCondition "B" "EQ" "A").run context).1 = some false ∧
      ((Asm.compareValues "A" "N").run context).1 = none := by
  intro context
  have ascending : ((Asm.compareValues "A" "B").run context).1 = some .lt ∧
      ((Asm.expressionCondition "A" "EQ" "B").run context).1 = some false := by decide +kernel
  obtain ⟨swapped, equal⟩ := (Asm.compareValues_swap
    (show (Asm.Scope.plain context.settings).Covers "A" by decide +kernel)
    (show (Asm.Scope.plain context.settings).Covers "B" by decide +kernel)).1 (by decide +kernel)
  have apart := (Asm.compareValues_swap
    (show (Asm.Scope.plain context.settings).Covers "A" by decide +kernel)
    (show (Asm.Scope.plain context.settings).Covers "N" by decide +kernel)).2 (by decide +kernel)
    (by decide +kernel)
  refine ⟨ascending.1, ?_, equal.trans ascending.2, apart⟩
  rw [swapped, ascending.1]
  rfl

/-- A number is compared with an address if the number stands on the left. -/
theorem comparison_one_sided :
    let context := passOneAfter placesLines "MAIN" {} ⟨"", "", ""⟩
    ((Asm.Scope.plain context.settings).Covers "A" ∧ (Asm.Scope.plain context.settings).Covers "0") ∧
      ((Asm.compareValues "A" "0").run context).1 = none ∧
      ((Asm.compareValues "0" "A").run context).1 = some .eq ∧
      ((Asm.expressionCondition "A" "EQ" "0").run context).1 = some false ∧
      ((Asm.expressionCondition "0" "EQ" "A").run context).1 = some true := by
  decide +kernel

end Assembly

end CrayAssembler
