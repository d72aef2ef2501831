import CrayAssembler.Token.Basic

namespace CrayAssembler

namespace Token

/-- Tokens for one step, and how many lexemes it takes after the first. -/
structure Step where
  tokens : List Token
  taken : Nat

/-- The first of `rest`, when it is an identifier that touches `lexeme`. -/
def touchingIdentifier? (lexeme : Lexeme) (rest : List Lexeme) : Option Lexeme :=
  rest.head?.filter fun next => next.kind = .identifier && lexeme.touches next

/-- Whether the first of `rest` is of this kind and touches `lexeme`. -/
def touchingKind (lexeme : Lexeme) (rest : List Lexeme) (kind : Lexeme.Kind) : Bool :=
  rest.head?.any fun next => next.kind = kind && lexeme.touches next

/-- An operator and the first letter of a touching identifier, the rest of which is a register. -/
def variantStep? (anyCase : Bool) (sign : Lexeme) (operator : Operator) (rest : List Lexeme) :
    Option Step := do
  let identifier ← touchingIdentifier? sign rest
  match identifier.text with
  | [] => none
  | first :: designator =>
    let (_, variant) ← operator.variants.find? fun (letter, _) =>
      letter = first || anyCase && letter = first.toUpper
    let register ← Register.read? designator anyCase
    let middle := identifier.span.start + 1
    return ⟨[⟨.operator variant, ⟨sign.span.start, middle⟩⟩,
      ⟨.register register, ⟨middle, identifier.span.stop⟩⟩], 1⟩

/-- A qualified name, `//name` or `/qualifier/name`, after its first slash. -/
def qualifiedStep? (slash : Lexeme) (rest : List Lexeme) : Option Step :=
  let name (qualifier : String) (last : Lexeme) (taken : Nat) : Step :=
    ⟨[⟨.name ⟨some qualifier, String.ofList last.text⟩, ⟨slash.span.start, last.span.stop⟩⟩], taken⟩
  match rest with
  | [] => none
  | second :: afterSecond =>
    if touchingKind slash rest (.operator .slash) then
      (touchingIdentifier? second afterSecond).map fun last => name "" last 2
    else
      match touchingIdentifier? slash rest, afterSecond with
      | some qualifier, third :: afterThird =>
        if touchingKind qualifier afterSecond (.operator .slash) then
          (touchingIdentifier? third afterThird).map fun last =>
            name (String.ofList qualifier.text) last 3
        else none
      | _, _ => none

/-- The counter that a star names where an operand is expected. -/
def counterStep (star : Lexeme) (rest : List Lexeme) : Step :=
  let suffixed : Option Step := do
    let identifier ← touchingIdentifier? star rest
    let counter ← Counter.ofSuffix? identifier.text
    return ⟨[⟨.location counter, ⟨star.span.start, identifier.span.stop⟩⟩], 1⟩
  suffixed.getD ⟨[⟨.location .location, star.span⟩], 0⟩

/-- An operator made of a lexeme and the character after it. -/
def wideStep (lexeme : Lexeme) (operator : Operator) : Step :=
  ⟨[⟨.operator operator, ⟨lexeme.span.start, lexeme.span.stop + 1⟩⟩], 1⟩

def operatorStep (anyCase expecting : Bool) (lexeme : Lexeme) (operator : Operator)
    (rest : List Lexeme) : Step :=
  let plain : Step := ⟨[⟨.operator operator, lexeme.span⟩], 0⟩
  let variant? := variantStep? anyCase lexeme operator rest
  match operator with
  | .hash =>
    if touchingKind lexeme rest (.operator .less) then wideStep lexeme .hashLess
    else if touchingKind lexeme rest (.operator .greater) then wideStep lexeme .hashGreater
    else plain
  | .star => variant?.getD (if expecting then counterStep lexeme rest else plain)
  | .slash =>
    let qualified? := if expecting then qualifiedStep? lexeme rest else none
    qualified?.getD (variant?.getD plain)
  | _ => variant?.getD plain

def identifierStep (anyCase : Bool) (lexeme : Lexeme) (rest : List Lexeme) : Step :=
  let letters := if anyCase then lexeme.text.map Char.toUpper else lexeme.text
  if letters = ['P'] && touchingKind lexeme rest .dot then wideStep lexeme .asParcel
  else if letters = ['W'] && touchingKind lexeme rest .dot then wideStep lexeme .asWord
  else
    match Register.read? lexeme.text anyCase with
    | some register => ⟨[⟨.register register, lexeme.span⟩], 0⟩
    | none => ⟨[⟨.name ⟨none, String.ofList lexeme.text⟩, lexeme.span⟩], 0⟩

def numberStep (lexeme : Lexeme) (rest : List Lexeme) : Step :=
  match touchingIdentifier? lexeme rest with
  | some identifier =>
    let whole := String.ofList (lexeme.text ++ identifier.text)
    ⟨[⟨.error s!"'{whole}' is neither a number nor a name",
      ⟨lexeme.span.start, identifier.span.stop⟩⟩], 1⟩
  | none => ⟨[⟨.number (String.ofList lexeme.text), lexeme.span⟩], 0⟩

/-- Tokens for a lexeme, given those after it and whether an operand is expected. -/
def step (anyCase expecting : Bool) (lexeme : Lexeme) (rest : List Lexeme) : Step :=
  let plain (kind : Kind) : Step := ⟨[⟨kind, lexeme.span⟩], 0⟩
  match lexeme.kind with
  | .identifier => identifierStep anyCase lexeme rest
  | .number => numberStep lexeme rest
  | .based radix digits =>
    match Numeral.ofDigits radix digits with
    | .ok value => plain (.based (UInt64.ofNat value))
    | .error reason => plain (.error reason.message)
  | .string constant => plain (.string constant)
  | .operator operator => operatorStep anyCase expecting lexeme operator rest
  | .leftParen => plain .leftParen
  | .rightParen => plain .rightParen
  | .comma => plain .comma
  | .dot => plain (.error "misplaced '.'")
  | .unknown =>
    let shown := String.ofList lexeme.text
    plain (.error s!"unexpected '{shown}'")

/-- Tokens of a list of lexemes, the first `skip` of which are already taken. -/
def ofLexemesFrom (anyCase expecting : Bool) (skip : Nat) : List Lexeme → List Token
  | [] => []
  | lexeme :: rest =>
    match skip with
    | more + 1 => ofLexemesFrom anyCase expecting more rest
    | 0 =>
      let step := step anyCase expecting lexeme rest
      let expecting := (step.tokens.getLast?.map (·.kind.opensOperand)).getD expecting
      step.tokens ++ ofLexemesFrom anyCase expecting step.taken rest

end Token

/-- Split a field into tokens. With `anyCase` designators of registers may be of either case. -/
def tokenize (text : List Char) (anyCase : Bool) : List Token :=
  Token.ofLexemesFrom anyCase true 0 (Lexeme.scan text)

end CrayAssembler
