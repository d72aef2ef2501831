import CrayAssembler.Pattern.Matcher

namespace CrayAssembler

namespace Matcher

/-- Two searches fail for the same reason, or both come to something that is related. -/
inductive Outcomes {β γ : Type} (related : β → γ → Prop) :
    Except MatchError β → Except MatchError γ → Prop
  | error (reason : MatchError) : Outcomes related (.error reason) (.error reason)
  | ok {first : β} {second : γ} (holds : related first second) :
      Outcomes related (.ok first) (.ok second)

namespace Graph

variable {α ν μ : Type} {related : ν → μ → Prop} {graph : Graph ν α} {other : Graph μ α}
  {text : List Char} {anyCase atStart : Bool} {node : ν} {place : μ}

/-- The same question to related nodes has the same answer, and where it is a node, a related one. -/
structure Simulates (related : ν → μ → Prop) (graph : Graph ν α) (other : Graph μ α) : Prop where
  child : ∀ {node place}, related node place → ∀ item,
    Option.Rel related (graph.child? node item) (other.child? place item)
  starts : ∀ {node place}, related node place → ∀ p,
    graph.startsWith node p = other.startsWith place p
  handler : ∀ {node place}, related node place → graph.handler? node = other.handler? place

/-- Nodes that are related, with the same that was taken on the way to them. -/
def Along (related : ν → μ → Prop) {β : Type} (first : ν × β) (second : μ × β) : Prop :=
  related first.1 second.1 ∧ first.2 = second.2

/-- Moves to nodes that are related, which take the same. -/
def Beside (related : ν → μ → Prop) (first : Move ν) (second : Move μ) : Prop :=
  related first.node second.node ∧ first.arg = second.arg ∧ first.taken = second.taken

section Rel

variable {first : Option ν} {second : Option μ}

theorem isSome_of_rel (both : Option.Rel related first second) : first.isSome = second.isSome := by
  cases both <;> rfl

theorem along_of_rel (both : Option.Rel related first second) (arg : Option Arg) :
    Option.Rel (Along related) (first.map (·, arg)) (second.map (·, arg)) := by
  cases both with
  | none => exact .none
  | some holds => exact .some ⟨holds, rfl⟩

end Rel

namespace Simulates

theorem accepts (simulates : Simulates related graph other) (here : related node place)
    (next : Option Token) : graph.accepts node next = other.accepts place next := by
  simp only [Graph.accepts, simulates.starts here, simulates.handler here]

theorem registerChild? (simulates : Simulates related graph other) (here : related node place)
    (register : Register) (next : Option Token) :
    Option.Rel related (graph.registerChild? node register next)
      (other.registerChild? place register next) := by
  have fixed := simulates.child here (.register register.kind (some register.number))
  have general := simulates.child here (.register register.kind none)
  unfold Graph.registerChild?
  generalize graph.child? node (.register register.kind (some register.number)) = one,
    other.child? place (.register register.kind (some register.number)) = one' at fixed ⊢
  generalize graph.child? node (.register register.kind none) = two,
    other.child? place (.register register.kind none) = two' at general ⊢
  cases fixed with
  | none => exact general
  | some fixed =>
    cases general with
    | none => exact .some fixed
    | some general =>
      simp only [simulates.accepts fixed]
      split
      · exact .some fixed
      · exact .some general

theorem moveToken? (simulates : Simulates related graph other) (here : related node place)
    (token : Token) (next : Option Token) :
    Option.Rel (Along related) (graph.moveToken? node anyCase atStart token next)
      (other.moveToken? place anyCase atStart token next) := by
  unfold Graph.moveToken?
  split
  · exact along_of_rel (simulates.registerChild? here _ next) _
  · rename_i operator _
    rw [isSome_of_rel (simulates.child here .expression)]
    dsimp only
    split
    · exact .none
    · exact along_of_rel (simulates.child here (.operator operator)) _
  · split
    · exact along_of_rel (simulates.child here _) _
    · exact .none
  · exact .none

theorem moveExpression (simulates : Simulates related graph other) (here : related node place)
    (tokens : List Token) :
    Outcomes (Beside related) (graph.moveExpression node text tokens)
      (other.moveExpression place text tokens) := by
  have child := simulates.child here .expression
  unfold Graph.moveExpression
  generalize graph.child? node .expression = next, other.child? place .expression = next' at child ⊢
  cases child with
  | none => exact .error .noMatch
  | some both =>
    cases Expr.parseLongest tokens text with
    | error reason => exact .error (.badExpression reason)
    | ok found => exact .ok ⟨both, rfl, rfl⟩

/-- One step of a walk. -/
theorem move (simulates : Simulates related graph other) (here : related node place)
    (token : Token) (rest : List Token) :
    Outcomes (Beside related) (graph.move node text anyCase atStart token rest)
      (other.move place text anyCase atStart token rest) := by
  unfold Graph.move
  split
  · have child := simulates.child here .subfieldDelimiter
    generalize graph.child? node .subfieldDelimiter = next,
      other.child? place .subfieldDelimiter = next' at child ⊢
    cases child with
    | none => exact .error .noMatch
    | some both => exact .ok ⟨both, rfl, rfl⟩
  · have taken : Option.Rel (Along related)
        (graph.moveToken? node anyCase atStart token rest.head?)
        (other.moveToken? place anyCase atStart token rest.head?) :=
      simulates.moveToken? here token rest.head?
    generalize graph.moveToken? node anyCase atStart token rest.head? = next,
      other.moveToken? place anyCase atStart token rest.head? = next' at taken ⊢
    cases taken with
    | none => exact simulates.moveExpression here (token :: rest)
    | some both => exact .ok ⟨both.1, both.2, rfl⟩

/-- A walk takes the same in both graphs and ends at related nodes. -/
theorem walk (simulates : Simulates related graph other) (here : related node place)
    (args : List Arg) (atStart : Bool) (skip : Nat) (tokens : List Token) :
    Outcomes (Along related) (graph.walk text anyCase node args atStart skip tokens)
      (other.walk text anyCase place args atStart skip tokens) := by
  induction tokens generalizing node place args atStart skip with
  | nil => exact .ok ⟨here, rfl⟩
  | cons token rest ih =>
    cases skip with
    | succ more => exact ih here args _ more
    | zero =>
      have moved : Outcomes (Beside related) (graph.move node text anyCase atStart token rest)
          (other.move place text anyCase atStart token rest) := simulates.move here token rest
      rw [Graph.walk, Graph.walk]
      generalize graph.move node text anyCase atStart token rest = step,
        other.move place text anyCase atStart token rest = step' at moved ⊢
      cases moved with
      | error reason => exact .error reason
      | ok both =>
        obtain ⟨next, arg, taken⟩ := both
        dsimp only
        rw [arg, taken]
        exact ih next _ _ _

/-- The same pattern is found in both graphs, or in neither, for the same reason. -/
theorem find (simulates : Simulates related graph other) (here : related node place)
    (result operand : FieldTokens) (anyCase : Bool) :
    graph.find node result operand anyCase = other.find place result operand anyCase := by
  have first : Outcomes (Along related) (graph.walk result.text anyCase node [] true 0 result.tokens)
      (other.walk result.text anyCase place [] true 0 result.tokens) := simulates.walk here ..
  unfold Graph.find
  generalize graph.walk result.text anyCase node [] true 0 result.tokens = walked,
    other.walk result.text anyCase place [] true 0 result.tokens = walked' at first ⊢
  cases first with
  | error reason => rfl
  | @ok after after' both =>
    obtain ⟨next, same⟩ := both
    have child := simulates.child next .fieldDelimiter
    dsimp only [bind, Except.bind]
    generalize graph.child? after.1 .fieldDelimiter = start,
      other.child? after'.1 .fieldDelimiter = start' at child ⊢
    cases child with
    | none => rfl
    | @some start start' begins =>
      have second : Outcomes (Along related)
          (graph.walk operand.text anyCase start after.2 true 0 operand.tokens)
          (other.walk operand.text anyCase start' after'.2 true 0 operand.tokens) :=
        same ▸ simulates.walk begins ..
      dsimp only
      generalize graph.walk operand.text anyCase start after.2 true 0 operand.tokens = walked,
        other.walk operand.text anyCase start' after'.2 true 0 operand.tokens = walked' at second ⊢
      cases second with
      | error reason => rfl
      | ok ends =>
        dsimp only
        rw [simulates.handler ends.1, ends.2]

end Simulates

end Graph

end Matcher

end CrayAssembler
