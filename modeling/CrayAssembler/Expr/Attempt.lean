import CrayAssembler.Token.Basic

namespace CrayAssembler

/-- Of two places in the same tokens the one that is further on. A place is the tokens from there
on. -/
def further (one other : List Token) : List Token :=
  if other.length < one.length then other else one

/-- What a parser makes of tokens: a value with the tokens after it, or a refusal. Either way the
place furthest on where a token was refused is kept, in what was taken or in what was given back. -/
structure Attempt (α : Type) (bound : Nat) where
  taken : Option (α × {rest : List Token // rest.length < bound})
  furthest : List Token

/-- A parser of fewer than `bound` tokens. -/
abbrev Parser (bound : Nat) (α : Type) : Type :=
  (tokens : List Token) → tokens.length < bound → Attempt α tokens.length

/-- A parser where fewer tokens are left. -/
def Parser.narrow {α : Type} {bound n : Nat} (parser : Parser bound α) (fewer : n < bound) :
    Parser n α :=
  fun rest shorter => parser rest (Nat.lt_trans shorter fewer)

namespace Attempt

variable {α β : Type} {bound : Nat}

/-- Take the first token if it is of a kind that stands for something. -/
def select (select? : Token.Kind → Option α) : (tokens : List Token) → Attempt α tokens.length
  | [] => ⟨none, []⟩
  | token :: rest =>
    ⟨(select? token.kind).map fun value => (value, ⟨rest, Nat.lt_succ_self _⟩), token :: rest⟩

/-- Change the value that is taken, by what is left after it. -/
def mapWith (attempt : Attempt α bound) (f : α → List Token → β) : Attempt β bound where
  taken := attempt.taken.map fun (value, rest) => (f value rest.1, rest)
  furthest := attempt.furthest

def map (attempt : Attempt α bound) (f : α → β) : Attempt β bound :=
  attempt.mapWith fun value _ => f value

/-- Go on behind what is taken. -/
def andThen (first : Attempt α bound)
    (next : α → (rest : List Token) → rest.length < bound → Attempt β rest.length) :
    Attempt β bound :=
  match first.taken with
  | none => ⟨none, first.furthest⟩
  | some (value, ⟨rest, fewer⟩) =>
    let second := next value rest fewer
    { taken := second.taken.map fun (value, after) => (value, ⟨after.1, Nat.lt_trans after.2 fewer⟩)
      furthest := further first.furthest second.furthest }

/-- Try another parser where the first one refused. -/
def orElse (first second : Attempt α bound) : Attempt α bound :=
  match first.taken with
  | none => ⟨second.taken, further first.furthest second.furthest⟩
  | some _ => first

/-- Refuse what is taken when some token follows it. -/
def unlessBefore (attempt : Attempt α bound) (p : Token → Bool) : Attempt α bound :=
  match attempt.taken with
  | none => attempt
  | some (_, rest) =>
    if rest.1.head?.any p then ⟨none, further attempt.furthest rest.1⟩ else attempt

/-- Go on as often as a parser takes something. What it took before it refused is given back. -/
def repeated (item : Parser bound β) (combine : α → β → α) (value : α) (rest : List Token)
    (fewer : rest.length < bound) (furthest : List Token) : Attempt α bound :=
  let next := item rest fewer
  let furthest := further furthest next.furthest
  match next.taken with
  | none => ⟨some (value, ⟨rest, fewer⟩), furthest⟩
  | some (operand, after) =>
    repeated item combine (combine value operand) after.1 (Nat.lt_trans after.2 fewer) furthest
termination_by rest.length
decreasing_by exact after.2

/-- Combine what is taken with all that a parser takes behind it, from left to right. -/
def foldl (first : Attempt α bound) (item : Parser bound β) (combine : α → β → α) :
    Attempt α bound :=
  match first.taken with
  | none => ⟨none, first.furthest⟩
  | some (value, rest) => repeated item combine value rest.1 rest.2 first.furthest

end Attempt

end CrayAssembler
