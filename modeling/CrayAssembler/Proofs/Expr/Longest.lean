import CrayAssembler.Proofs.Expr.Grammar

namespace CrayAssembler

namespace Expr

variable {text : List Char} {tokens run : List Token} {expr : Expr} {used : Nat}

theorem parseLongest_eq_ok :
    parseLongest tokens text = .ok (expr, used) ↔ ∃ rest,
      (expression text tokens).result? = some (expr, rest) ∧ used = tokens.length - rest.length := by
  unfold parseLongest Attempt.result?
  dsimp only
  cases (expression text tokens).taken with
  | none => exact ⟨nofun, nofun⟩
  | some found =>
    obtain ⟨other, rest, fewer⟩ := found
    constructor
    · rintro ⟨⟩
      exact ⟨rest, rfl, rfl⟩
    · rintro ⟨_, ⟨⟩, rfl⟩
      rfl

/-- Where all tokens are an expression it is the longest one. -/
theorem parseLongest_of_all (parsed : parseComplete tokens text = .ok expr) :
    parseLongest tokens text = .ok (expr, tokens.length) :=
  parseLongest_eq_ok.mpr ⟨[], parseComplete_eq_ok.mp parsed, rfl⟩

/-- The longest expression takes at least one token, and those that it takes are an expression. -/
theorem complete_of_parseLongest (parsed : parseLongest tokens text = .ok (expr, used)) :
    ∃ token run rest, tokens = token :: run ++ rest ∧ used = run.length + 1 ∧
      parseComplete (token :: run) text = .ok expr := by
  obtain ⟨rest, taken, rfl⟩ := parseLongest_eq_ok.mp parsed
  obtain ⟨run, rfl, spells, canonical, -⟩ := sound_expression text tokens expr rest taken
  obtain ⟨token, run, rfl⟩ := List.exists_cons_of_ne_nil spells.ne_nil
  refine ⟨token, run, rest, rfl, ?_, parseComplete_iff_spells.mpr ⟨spells, canonical⟩⟩
  rw [List.length_append, Nat.add_sub_cancel]
  rfl

/-- Where some first tokens are an expression, one is found that is at least as long: what is given
back at the end never reaches into an expression that was complete. -/
theorem parseLongest_of_complete (parsed : parseComplete run text = .ok expr)
    (front : run <+: tokens) :
    ∃ longest used, parseLongest tokens text = .ok (longest, used) ∧ run.length ≤ used := by
  obtain ⟨rest, rfl⟩ := front
  obtain ⟨spells, canonical⟩ := parseComplete_iff_spells.mp parsed
  obtain ⟨longest, final, taken, shorter⟩ :=
    (spells.legible canonical).reaches _ _ rest (Nat.lt_succ_self _) rfl
  rw [← expression_eq] at taken
  refine ⟨longest, _, parseLongest_eq_ok.mpr ⟨final, taken, rfl⟩, ?_⟩
  rw [List.length_append]
  omega

/-- The first `count` tokens are an expression, and no longer prefix of the tokens is one. -/
structure Longest (tokens : List Token) (text : List Char) (expr : Expr) (count : Nat) : Prop where
  positive : 1 ≤ count
  within : count ≤ tokens.length
  complete : parseComplete (tokens.take count) text = .ok expr
  longest : ∀ front, front <+: tokens → count < front.length →
    ∃ error, parseComplete front text = .error error

/-- Of all prefixes of the tokens that are expressions by themselves the longest is taken, as the
expression that it is, and there is an error exactly if there is none but the empty one. -/
theorem parseLongest_iff (tokens : List Token) (text : List Char) :
    (∀ expr count, parseLongest tokens text = .ok (expr, count) ↔ Longest tokens text expr count) ∧
    ((∃ error, parseLongest tokens text = .error error) ↔
      ∀ front, front <+: tokens → front ≠ [] → ∃ error, parseComplete front text = .error error) := by
  refine ⟨fun expr count => ⟨fun parsed => ?taken, fun longest => ?found⟩,
    fun ⟨error, refused⟩ front inside some => ?refused, fun none => ?none⟩
  case taken =>
    obtain ⟨token, run, rest, rfl, rfl, complete⟩ := complete_of_parseLongest parsed
    refine ⟨Nat.le_add_left _ _, ?_, by simpa using complete, fun front inside longer => ?_⟩
    · rw [List.length_append, List.length_cons]
      exact Nat.le_add_right _ _
    · cases whole : parseComplete front text with
      | error error => exact ⟨error, rfl⟩
      | ok other =>
        obtain ⟨_, used, again, bound⟩ := parseLongest_of_complete whole inside
        cases parsed.symm.trans again
        exact absurd longer (Nat.not_lt.mpr bound)
  case found =>
    obtain ⟨found, used, parsed, bound⟩ :=
      parseLongest_of_complete longest.complete (List.take_prefix _ _)
    obtain ⟨token, run, rest, rfl, rfl, complete⟩ := complete_of_parseLongest parsed
    rw [List.length_take, Nat.min_eq_left longest.within] at bound
    -- A longer one would be a longer prefix that is an expression.
    have same : count = run.length + 1 := by
      refine Nat.le_antisymm bound (Nat.not_lt.mp fun longer => ?_)
      obtain ⟨error, refused⟩ := longest.longest (token :: run) (List.prefix_append _ _) longer
      nomatch complete.symm.trans refused
    subst same
    have whole : parseComplete (token :: run) text = .ok expr := by simpa using longest.complete
    rw [parsed, Except.ok.inj (complete.symm.trans whole)]
  case refused =>
    cases whole : parseComplete front text with
    | error error => exact ⟨error, rfl⟩
    | ok other =>
      obtain ⟨_, _, parsed, -⟩ := parseLongest_of_complete whole inside
      nomatch parsed.symm.trans refused
  case none =>
    cases parsed : parseLongest tokens text with
    | error error => exact ⟨error, rfl⟩
    | ok found =>
      obtain ⟨token, run, rest, rfl, -, complete⟩ := complete_of_parseLongest parsed
      obtain ⟨error, refused⟩ := none (token :: run) (List.prefix_append _ _) (List.cons_ne_nil _ _)
      nomatch complete.symm.trans refused

/-- An operator before a register is given back, and so is a product that is not complete. -/
example : (parseLongest (tokenize "X*(Y+1)-(Z*A1".toList false) "X*(Y+1)-(Z*A1".toList).toOption =
    some (.binary .multiply (.symbol ⟨none, "X"⟩)
      (.group (.binary .add (.symbol ⟨none, "Y"⟩) (.number "1"))), 7) := by
  decide +kernel

end Expr

end CrayAssembler
