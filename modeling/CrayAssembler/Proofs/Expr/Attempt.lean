import CrayAssembler.Expr.Attempt

namespace CrayAssembler

namespace Attempt

variable {α β : Type} {bound : Nat}

/-- What is taken, with the tokens after it. -/
def result? (attempt : Attempt α bound) : Option (α × List Token) :=
  attempt.taken.map fun (value, rest) => (value, rest.1)

theorem length_of_result? {attempt : Attempt α bound} {value : α} {rest : List Token}
    (taken : attempt.result? = some (value, rest)) : rest.length < bound := by
  obtain ⟨⟨_, rest⟩, -, ⟨⟩⟩ := Option.map_eq_some_iff.mp taken
  exact rest.2

@[simp] theorem result?_select_nil (select? : Token.Kind → Option α) :
    (select select? []).result? = none :=
  rfl

@[simp] theorem result?_select_cons (select? : Token.Kind → Option α) (token : Token)
    (rest : List Token) :
    (select select? (token :: rest)).result? = (select? token.kind).map (·, rest) := by
  change ((select? token.kind).map _).map _ = _
  rw [Option.map_map]
  rfl

@[simp] theorem result?_mapWith (attempt : Attempt α bound) (f : α → List Token → β) :
    (attempt.mapWith f).result? = attempt.result?.map fun (value, rest) => (f value rest, rest) := by
  change (attempt.taken.map _).map _ = (attempt.taken.map _).map _
  rw [Option.map_map, Option.map_map]
  rfl

@[simp] theorem result?_map (attempt : Attempt α bound) (f : α → β) :
    (attempt.map f).result? = attempt.result?.map fun (value, rest) => (f value, rest) :=
  result?_mapWith attempt fun value _ => f value

theorem result?_andThen_eq_some {first : Attempt α bound}
    {next : α → (rest : List Token) → rest.length < bound → Attempt β rest.length}
    {out : β × List Token} :
    (first.andThen next).result? = some out ↔
      ∃ value rest fewer, first.result? = some (value, rest) ∧
        (next value rest fewer).result? = some out := by
  unfold andThen result?
  cases taken : first.taken with
  | none => simp
  | some found =>
    obtain ⟨value, rest, fewer⟩ := found
    simp only [Option.map_map, Option.map_some, Option.some.injEq, Prod.mk.injEq]
    constructor
    · exact fun same => ⟨value, rest, fewer, ⟨rfl, rfl⟩, same⟩
    · rintro ⟨_, _, _, ⟨rfl, rfl⟩, same⟩
      exact same

theorem result?_andThen_eq_none {first : Attempt α bound}
    {next : α → (rest : List Token) → rest.length < bound → Attempt β rest.length}
    (refused : first.result? = none) : (first.andThen next).result? = none := by
  refine Option.eq_none_iff_forall_ne_some.mpr fun out taken => ?_
  obtain ⟨value, rest, -, found, -⟩ := result?_andThen_eq_some.mp taken
  rw [refused] at found
  nomatch found

@[simp] theorem result?_orElse (first second : Attempt α bound) :
    (first.orElse second).result? = first.result?.or second.result? := by
  unfold orElse result?
  cases taken : first.taken with
  | none => rfl
  | some found =>
    dsimp only
    rw [taken]
    rfl

@[simp] theorem result?_unlessBefore (attempt : Attempt α bound) (p : Token → Bool) :
    (attempt.unlessBefore p).result? =
      attempt.result?.filter fun (_, rest) => !rest.head?.any p := by
  unfold unlessBefore result?
  cases taken : attempt.taken with
  | none =>
    dsimp only
    rw [taken]
    rfl
  | some found =>
    obtain ⟨value, rest, fewer⟩ := found
    dsimp only [Option.map_some]
    by_cases follows : rest.head?.any p
    · rw [if_pos follows, Option.filter_some, if_neg (by simpa using follows)]
      rfl
    · rw [if_neg follows, taken, Option.filter_some, if_pos (by simpa using follows)]
      rfl

section Repeating

variable {item : Parser bound β} {combine : α → β → α} {value : α} {rest : List Token}
  {attempt : Attempt α bound}

/-- The attempt comes down to going on from a value that was taken. -/
def GoesOn (attempt : Attempt α bound) (item : Parser bound β) (combine : α → β → α) (value : α)
    (rest : List Token) : Prop :=
  ∃ fewer furthest, attempt.result? = (repeated item combine value rest fewer furthest).result?

theorem goesOn_foldl {first : Attempt α bound} (taken : first.result? = some (value, rest)) :
    (first.foldl item combine).GoesOn item combine value rest := by
  obtain ⟨⟨_, rest, fewer⟩, found, ⟨⟩⟩ := Option.map_eq_some_iff.mp taken
  refine ⟨fewer, first.furthest, ?_⟩
  rw [foldl, found]

theorem result?_foldl_of_none {first : Attempt α bound} (refused : first.result? = none) :
    (first.foldl item combine).result? = none := by
  rw [foldl, Option.map_eq_none_iff.mp refused]
  rfl

theorem GoesOn.step (goesOn : attempt.GoesOn item combine value rest) {operand : β}
    {after : List Token} (taken : ∀ fewer, (item rest fewer).result? = some (operand, after)) :
    attempt.GoesOn item combine (combine value operand) after := by
  obtain ⟨fewer, furthest, same⟩ := goesOn
  obtain ⟨⟨_, after, shorter⟩, found, ⟨⟩⟩ := Option.map_eq_some_iff.mp (taken fewer)
  rw [repeated, found] at same
  exact ⟨_, _, same⟩

theorem GoesOn.stop (goesOn : attempt.GoesOn item combine value rest)
    (refused : ∀ fewer, (item rest fewer).result? = none) :
    attempt.result? = some (value, rest) := by
  obtain ⟨fewer, furthest, same⟩ := goesOn
  rw [same, repeated, Option.map_eq_none_iff.mp (refused fewer)]
  rfl

/-- Going on always ends, with all that every single step preserves. -/
theorem GoesOn.keeps (goesOn : attempt.GoesOn item combine value rest)
    {P : α → List Token → Prop} (start : P value rest)
    (step : ∀ value rest fewer operand after, P value rest →
      (item rest fewer).result? = some (operand, after) → P (combine value operand) after) :
    ∃ last final, attempt.result? = some (last, final) ∧ P last final := by
  obtain ⟨fewer, furthest, same⟩ := goesOn
  rw [same]
  clear same
  fun_induction repeated item combine value rest fewer furthest with
  | case1 value rest fewer furthest next _ refused => exact ⟨value, rest, rfl, start⟩
  | case2 value rest fewer furthest next _ operand after taken ih =>
    refine ih (step value rest fewer operand after.1 start ?_)
    exact Option.map_eq_some_iff.mpr ⟨_, taken, rfl⟩

end Repeating

end Attempt

end CrayAssembler
