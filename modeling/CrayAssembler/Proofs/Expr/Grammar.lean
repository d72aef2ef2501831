import CrayAssembler.Expr.Parser
import CrayAssembler.Proofs.Expr.Attempt
import CrayAssembler.Token.Lexer

namespace CrayAssembler

/-- The operator that a unary operator is written with. -/
def UnaryOp.operator : UnaryOp → Operator
  | plus => .plus
  | minus => .minus
  | complement => .hash
  | maskLeft => .less
  | maskRight => .greater
  | complementMaskLeft => .hashLess
  | complementMaskRight => .hashGreater
  | parcelAddress => .asParcel
  | wordAddress => .asWord

theorem UnaryOp.ofOperator?_iff {operator : Operator} {op : UnaryOp} :
    ofOperator? operator = some op ↔ operator = op.operator := by
  cases operator <;> cases op <;> simp [ofOperator?, UnaryOp.operator]

/-- The operator that a binary operator is written with. -/
def BinaryOp.operator : BinaryOp → Operator
  | add => .plus
  | subtract => .minus
  | multiply => .star
  | divide => .slash
  | and => .ampersand
  | or => .bang
  | xor => .backslash
  | shiftLeft => .less
  | shiftRight => .greater

theorem BinaryOp.ofOperator?_iff {operator : Operator} {op : BinaryOp} :
    ofOperator? operator = some op ↔ operator = op.operator := by
  cases operator <;> cases op <;> simp [ofOperator?, BinaryOp.operator]

namespace Expr

def isBinary : Expr → Bool
  | binary .. => true
  | _ => false

/-- The operator at the root is of the loosest level. -/
def isSum : Expr → Bool
  | binary op _ _ => op.isAdding
  | _ => false

/-- Kinds of the tokens that an expression is written with, in order. -/
def yield : Expr → List Token.Kind
  | symbol name => [.name name]
  | number text => [.number text]
  | based value => [.based value]
  | string constant => [.string constant]
  | location counter => [.location counter]
  | unary op operand => .operator op.operator :: operand.yield
  | binary op left right => left.yield ++ .operator op.operator :: right.yield
  | group inner => .leftParen :: (inner.yield ++ [.rightParen])
  | literal _ operand => .operator .equals :: operand.yield

/-- Operands are of the levels that operators take without parentheses. -/
def Canonical : Expr → Prop
  | unary _ operand => operand.isBinary = false ∧ operand.Canonical
  | literal _ operand => operand.isBinary = false ∧ operand.Canonical
  | binary op left right =>
    (if op.isAdding then right.isSum = false
      else left.isSum = false ∧ right.isBinary = false) ∧ left.Canonical ∧ right.Canonical
  | group inner => inner.Canonical
  | _ => True

/-- The text between two byte offsets as the key of a literal. -/
def literalKey (text : List Char) (start stop : Nat) : String :=
  String.ofList (Text.trim (Text.slice text start stop))

/-- Where the first of some tokens starts. -/
def startOf (tokens : List Token) : Nat :=
  (tokens.head?.map (·.span.start)).getD 0

/-- Where the last of some tokens stops. -/
def stopOf (tokens : List Token) : Nat :=
  (tokens.getLast?.map (·.span.stop)).getD 0

/-- The key of every literal of an expression that is written with some tokens is the text of its
operand, from the start of the first token to the end of the last. -/
def Quoted (text : List Char) : Expr → List Token → Prop
  | unary _ operand, tokens => operand.Quoted text tokens.tail
  | literal key operand, tokens =>
    key = literalKey text (startOf tokens.tail) (stopOf tokens.tail) ∧
      operand.Quoted text tokens.tail
  | binary _ left right, tokens =>
    left.Quoted text (tokens.take left.yield.length) ∧
      right.Quoted text (tokens.drop (left.yield.length + 1))
  | group inner, tokens => inner.Quoted text tokens.tail.dropLast
  | _, _ => True

/-- Tokens spell an expression. The key of a literal is the text of its operand. -/
inductive Spells (text : List Char) : List Token → Expr → Prop
  | leaf {token : Token} {leaf : Expr} : ofToken? token.kind = some leaf → Spells text [token] leaf
  | unary {sign : Token} {op : UnaryOp} {rest : List Token} {operand : Expr} :
      sign.kind = .operator op.operator → Spells text rest operand →
      Spells text (sign :: rest) (unary op operand)
  | literal {sign : Token} {rest : List Token} {operand : Expr} :
      sign.kind = .operator .equals → Spells text rest operand →
      Spells text (sign :: rest) (literal (textOf text rest) operand)
  | binary {sign : Token} {op : BinaryOp} {first second : List Token} {left right : Expr} :
      sign.kind = .operator op.operator → Spells text first left → Spells text second right →
      Spells text (first ++ sign :: second) (binary op left right)
  | group {opening closing : Token} {inside : List Token} {inner : Expr} :
      opening.kind = .leftParen → closing.kind = .rightParen → Spells text inside inner →
      Spells text (opening :: (inside ++ [closing])) (group inner)

variable {text : List Char} {tokens : List Token} {expr : Expr}

section Spelling

/-- A slice that would end before it starts is empty, so that the check makes no difference. -/
theorem textOf_eq (text : List Char) (run : List Token) :
    textOf text run = literalKey text (startOf run) (stopOf run) := by
  have empty {start stop : Nat} (backwards : stop ≤ start) : literalKey text start stop = "" := by
    rw [literalKey, Text.slice, Nat.sub_eq_zero_of_le backwards]
    cases Text.dropBytes start text <;> rfl
  unfold textOf startOf stopOf
  cases run with
  | nil => exact (empty (Nat.le_refl 0)).symm
  | cons first others =>
    rw [List.head?_cons, List.getLast?_cons]
    dsimp only [Option.map_some, Option.getD_some]
    split
    case isTrue => rfl
    case isFalse backwards => exact (empty (by omega)).symm

theorem Spells.ne_nil (spells : Spells text tokens expr) : tokens ≠ [] := by
  cases spells <;> simp

theorem kind_of_ofToken? {kind : Token.Kind} {leaf : Expr} (found : ofToken? kind = some leaf) :
    [kind] = leaf.yield ∧ leaf.isBinary = false ∧ leaf.Canonical ∧
      ∀ text tokens, leaf.Quoted text tokens := by
  cases kind with
  | name | number | based | string | location =>
    obtain ⟨⟩ := found
    exact ⟨rfl, rfl, trivial, fun _ _ => trivial⟩
  | _ => nomatch found

theorem isSum_of_isBinary (operand : expr.isBinary = false) : expr.isSum = false := by
  cases expr with
  | binary => nomatch operand
  | _ => rfl

theorem Spells.yield_quoted (spells : Spells text tokens expr) :
    tokens.map (·.kind) = expr.yield ∧ expr.Quoted text tokens := by
  induction spells with
  | leaf found =>
    obtain ⟨yield, -, -, quoted⟩ := kind_of_ofToken? found
    exact ⟨yield, quoted _ _⟩
  | unary kind _ ih =>
    refine ⟨?_, ih.2⟩
    rw [List.map_cons, kind, ih.1]
    rfl
  | literal kind _ ih =>
    refine ⟨?_, textOf_eq _ _, ih.2⟩
    rw [List.map_cons, kind, ih.1]
    rfl
  | @binary sign op first second left right kind _ _ before after =>
    have length : left.yield.length = first.length := by rw [← before.1, List.length_map]
    refine ⟨?_, ?_, ?_⟩
    · rw [List.map_append, List.map_cons, kind, before.1, after.1]
      rfl
    · rw [length, List.take_left]
      exact before.2
    · rw [length, List.drop_append, List.drop_eq_nil_of_le (by omega)]
      simpa using after.2
  | @group opening closing inside inner left right _ ih =>
    refine ⟨?_, ?_⟩
    · rw [List.map_cons, List.map_append, left, ih.1]
      simp [yield, right]
    · change inner.Quoted text (inside ++ [closing]).dropLast
      rw [List.dropLast_concat]
      exact ih.2

theorem spells_leaf {kind : Token.Kind} {leaf : Expr} (found : ofToken? kind = some leaf)
    (only : tokens.map (·.kind) = [kind]) : Spells text tokens leaf := by
  obtain ⟨token, rfl, rfl⟩ := List.map_eq_singleton_iff.mp only
  exact .leaf found

theorem spells_of_yield (written : tokens.map (·.kind) = expr.yield)
    (quoted : expr.Quoted text tokens) : Spells text tokens expr := by
  induction expr generalizing tokens with
  | symbol | number | based | string | location => exact spells_leaf rfl written
  | unary op operand ih =>
    obtain ⟨sign, rest, rfl, kind, after⟩ := List.map_eq_cons_iff.mp written
    exact .unary kind (ih after quoted)
  | literal key operand ih =>
    obtain ⟨sign, rest, rfl, kind, after⟩ := List.map_eq_cons_iff.mp written
    obtain ⟨rfl, quoted⟩ := quoted
    change Spells text (sign :: rest) (literal (literalKey text (startOf rest) (stopOf rest)) operand)
    rw [← textOf_eq]
    exact .literal kind (ih after quoted)
  | binary op left right before after =>
    obtain ⟨first, others, rfl, writtenLeft, written⟩ := List.map_eq_append_iff.mp written
    obtain ⟨sign, second, rfl, kind, writtenRight⟩ := List.map_eq_cons_iff.mp written
    have length : left.yield.length = first.length := by rw [← writtenLeft, List.length_map]
    obtain ⟨quotedLeft, quotedRight⟩ := quoted
    rw [length, List.take_left] at quotedLeft
    rw [length, List.drop_append, List.drop_eq_nil_of_le (by omega)] at quotedRight
    exact .binary kind (before writtenLeft quotedLeft)
      (after writtenRight (by simpa using quotedRight))
  | group inner ih =>
    obtain ⟨opening, others, rfl, left, written⟩ := List.map_eq_cons_iff.mp written
    obtain ⟨inside, last, rfl, writtenInner, written⟩ := List.map_eq_append_iff.mp written
    obtain ⟨closing, rfl, right⟩ := List.map_eq_singleton_iff.mp written
    change inner.Quoted text (inside ++ [closing]).dropLast at quoted
    rw [List.dropLast_concat] at quoted
    exact .group left right (ih writtenInner quoted)


/-- No expression starts with a comma or with a register, and an operator that starts one does not
stand before a register. -/
theorem Spells.head (spells : Spells text tokens expr) :
    ∃ token rest, tokens = token :: rest ∧ token.kind ≠ .comma ∧ token.isRegister = false ∧
      ∀ operator, token.kind = .operator operator →
        rest ≠ [] ∧ rest.head?.any Token.isRegister = false := by
  -- Of a leaf there is no operator; any other token that starts an expression is followed by one.
  have signed {sign : Token} {operator : Operator} {rest : List Token}
      (kind : sign.kind = .operator operator) (next : ∃ token others, rest = token :: others ∧
        token.kind ≠ .comma ∧ token.isRegister = false ∧ ∀ operator,
          token.kind = .operator operator →
            others ≠ [] ∧ others.head?.any Token.isRegister = false) :
      sign.kind ≠ .comma ∧ sign.isRegister = false ∧ ∀ operator, sign.kind = .operator operator →
        rest ≠ [] ∧ rest.head?.any Token.isRegister = false := by
    obtain ⟨token, others, rfl, -, register, -⟩ := next
    refine ⟨?_, ?_, fun _ _ => ⟨List.cons_ne_nil _ _, register⟩⟩
    · rw [kind]
      exact nofun
    · rw [Token.isRegister, kind]
  induction spells with
  | @leaf token leaf found =>
    refine ⟨token, [], rfl, ?_, ?_, fun operator kind => ?_⟩
    · intro kind
      rw [kind] at found
      nomatch found
    · unfold Token.isRegister
      split
      case h_1 register kind =>
        rw [kind] at found
        nomatch found
      · rfl
    · rw [kind] at found
      nomatch found
  | unary kind _ ih => exact ⟨_, _, rfl, signed kind ih⟩
  | literal kind _ ih => exact ⟨_, _, rfl, signed kind ih⟩
  | @binary sign op first second left right _ _ _ before _ =>
    obtain ⟨token, others, rfl, comma, register, next⟩ := before
    refine ⟨token, others ++ sign :: second, rfl, comma, register, fun operator kind => ?_⟩
    obtain ⟨some, follows⟩ := next operator kind
    obtain ⟨second, more, rfl⟩ := List.exists_cons_of_ne_nil some
    exact ⟨List.cons_ne_nil _ _, follows⟩
  | @group opening closing inside inner kind _ _ _ =>
    refine ⟨opening, inside ++ [closing], rfl, ?_, ?_, fun operator other => ?_⟩
    · rw [kind]
      exact nofun
    · rw [Token.isRegister, kind]
    · rw [kind] at other
      nomatch other

theorem Spells.head_not_register (spells : Spells text tokens expr) (rest : List Token) :
    (tokens ++ rest).head?.any Token.isRegister = false := by
  obtain ⟨token, others, rfl, -, register, -⟩ := spells.head
  exact register

end Spelling

section Operators

variable {rest : List Token} {adding : Bool}

theorem binaryOperator?_iff {kind : Token.Kind} {op : BinaryOp} :
    binaryOperator? adding kind = some op ↔ kind = .operator op.operator ∧ op.isAdding = adding := by
  cases kind with
  | operator operator => simp [binaryOperator?, BinaryOp.ofOperator?_iff]
  | _ => simp [binaryOperator?]

theorem prefixOperator?_iff {kind : Token.Kind} {op : UnaryOp} :
    prefixOperator? kind = some op ↔ kind = .operator op.operator := by
  cases kind with
  | operator operator => simp [prefixOperator?, UnaryOp.ofOperator?_iff]
  | _ => simp [prefixOperator?]

theorem result?_sign {kind : Token.Kind} {value : Unit} :
    (sign kind tokens).result? = some (value, rest) ↔
      ∃ token, tokens = token :: rest ∧ token.kind = kind := by
  cases tokens with
  | nil => simp [sign]
  | cons token others =>
    rw [sign, Attempt.result?_select_cons, Option.map_eq_some_iff]
    constructor
    · rintro ⟨_, found, ⟨⟩⟩
      refine ⟨token, rfl, Decidable.byContradiction fun other => ?_⟩
      rw [if_neg other] at found
      nomatch found
    · rintro ⟨_, ⟨⟩, rfl⟩
      exact ⟨(), if_pos rfl, rfl⟩

theorem result?_binaryOperator {op : BinaryOp} :
    (binaryOperator adding tokens).result? = some (op, rest) ↔
      ∃ token, tokens = token :: rest ∧ token.kind = .operator op.operator ∧ op.isAdding = adding ∧
        rest.head?.any Token.isRegister = false := by
  cases tokens with
  | nil => simp [binaryOperator]
  | cons token others =>
    simp only [binaryOperator, Attempt.result?_unlessBefore, Attempt.result?_select_cons,
      Option.filter_eq_some_iff, Option.map_eq_some_iff, binaryOperator?_iff, Prod.mk.injEq,
      List.cons.injEq, Bool.not_eq_true']
    constructor
    · rintro ⟨⟨_, ⟨kind, level⟩, rfl, rfl⟩, follows⟩
      exact ⟨token, ⟨rfl, rfl⟩, kind, level, follows⟩
    · rintro ⟨_, ⟨rfl, rfl⟩, kind, level, follows⟩
      exact ⟨⟨op, ⟨kind, level⟩, rfl, rfl⟩, follows⟩

/-- Tokens that do not start with an operator of the level. -/
def Ends (adding : Bool) (tokens : List Token) : Prop :=
  ∀ token rest, tokens = token :: rest →
    ∀ op : BinaryOp, token.kind = .operator op.operator → op.isAdding ≠ adding

theorem ends_nil : Ends adding [] :=
  nofun

theorem ends_operator {token : Token} {op : BinaryOp} (kind : token.kind = .operator op.operator)
    (other : op.isAdding ≠ adding) : Ends adding (token :: rest) := by
  rintro _ _ ⟨⟩ found kindAgain
  rw [kind] at kindAgain
  have equal : op = found := by
    have first := BinaryOp.ofOperator?_iff.mpr (rfl : op.operator = op.operator)
    rw [Token.Kind.operator.inj kindAgain, BinaryOp.ofOperator?_iff.mpr rfl] at first
    exact (Option.some.inj first).symm
  rwa [← equal]

theorem ends_closing {token : Token} (kind : token.kind = .rightParen) :
    Ends adding (token :: rest) := by
  rintro _ _ ⟨⟩ op operator
  rw [kind] at operator
  nomatch operator

theorem Ends.refuses (ends : Ends adding tokens) : (binaryOperator adding tokens).result? = none := by
  refine Option.eq_none_iff_forall_ne_some.mpr fun ⟨op, rest⟩ taken => ?_
  obtain ⟨token, rfl, kind, level, -⟩ := result?_binaryOperator.mp taken
  exact ends token rest rfl op kind level

theorem result?_followed {bound : Nat} {operand : Parser bound Expr} {fewer : tokens.length < bound}
    {op : BinaryOp} {right : Expr} :
    (followed adding operand tokens fewer).result? = some ((op, right), rest) ↔
      ∃ sign behind shorter, tokens = sign :: behind ∧ sign.kind = .operator op.operator ∧
        op.isAdding = adding ∧ behind.head?.any Token.isRegister = false ∧
        (operand behind shorter).result? = some (right, rest) := by
  unfold followed
  rw [Attempt.result?_andThen_eq_some]
  constructor
  · rintro ⟨_, behind, _, signed, taken⟩
    rw [Attempt.result?_map] at taken
    obtain ⟨⟨_, _⟩, taken, ⟨⟩⟩ := Option.map_eq_some_iff.mp taken
    obtain ⟨sign, rfl, kind, level, follows⟩ := result?_binaryOperator.mp signed
    exact ⟨sign, behind, _, rfl, kind, level, follows, taken⟩
  · rintro ⟨sign, behind, shorter, rfl, kind, level, follows, taken⟩
    refine ⟨op, behind, Nat.lt_succ_self _,
      result?_binaryOperator.mpr ⟨sign, rfl, kind, level, follows⟩, ?_⟩
    rw [Attempt.result?_map, taken]
    rfl

theorem Ends.not_followed {bound : Nat} {operand : Parser bound Expr} {fewer : tokens.length < bound}
    (ends : Ends adding tokens) : (followed adding operand tokens fewer).result? = none :=
  Attempt.result?_andThen_eq_none ends.refuses

end Operators

section Soundness

variable {bound : Nat}

/-- The tokens in front of `rest` spell an expression of a level. -/
def Spelled (text : List Char) (level : Expr → Prop) (tokens : List Token) (expr : Expr)
    (rest : List Token) : Prop :=
  ∃ run, tokens = run ++ rest ∧ Spells text run expr ∧ expr.Canonical ∧ level expr

/-- What is taken is spelled by the tokens that it takes, and it is of a level. -/
def Sound (text : List Char) (level : Expr → Prop) (tokens : List Token)
    (attempt : Attempt Expr bound) : Prop :=
  ∀ expr rest, attempt.result? = some (expr, rest) → Spelled text level tokens expr rest

variable {nested operand : Parser bound Expr}

theorem sound_atom (sound : ∀ tokens fewer, Sound text (fun _ => True) tokens (nested tokens fewer))
    (tokens : List Token) (fewer : tokens.length < bound + 1) :
    Sound text (·.isBinary = false) tokens (atom nested tokens fewer) := by
  intro expr rest taken
  rw [atom, Attempt.result?_orElse] at taken
  rcases Option.or_eq_some_iff.mp taken with leaf | ⟨-, group⟩
  · cases tokens with
    | nil => nomatch leaf
    | cons token others =>
      rw [Attempt.result?_select_cons] at leaf
      obtain ⟨_, found, ⟨⟩⟩ := Option.map_eq_some_iff.mp leaf
      obtain ⟨-, single, canonical, -⟩ := kind_of_ofToken? found
      exact ⟨[token], rfl, .leaf found, canonical, single⟩
  · obtain ⟨_, inside, _, opened, taken⟩ := Attempt.result?_andThen_eq_some.mp group
    obtain ⟨inner, closing, _, inner_taken, taken⟩ := Attempt.result?_andThen_eq_some.mp taken
    rw [Attempt.result?_map] at taken
    obtain ⟨⟨_, _⟩, closed, ⟨⟩⟩ := Option.map_eq_some_iff.mp taken
    obtain ⟨opening, rfl, left⟩ := result?_sign.mp opened
    obtain ⟨last, rfl, right⟩ := result?_sign.mp closed
    obtain ⟨run, rfl, spells, canonical, -⟩ := sound _ _ _ _ inner_taken
    exact ⟨opening :: (run ++ [last]), by simp, .group left right spells, canonical, rfl⟩

theorem sound_prefixed
    (sound : ∀ tokens fewer, Sound text (fun _ => True) tokens (nested tokens fewer))
    (tokens : List Token) (fewer : tokens.length < bound + 1) :
    Sound text (·.isBinary = false) tokens (prefixed text nested tokens fewer) := by
  induction tokens with
  | nil =>
    intro expr rest taken
    rw [prefixed] at taken
    nomatch taken
  | cons token others ih =>
    intro expr rest taken
    rw [prefixed] at taken
    simp only [Attempt.result?_orElse] at taken
    rcases Option.or_eq_some_iff.mp taken with pooled | ⟨-, taken⟩
    · obtain ⟨_, inside, _, signed, taken⟩ := Attempt.result?_andThen_eq_some.mp pooled
      obtain ⟨_, ⟨⟩, kind⟩ := result?_sign.mp signed
      rw [Attempt.result?_mapWith] at taken
      obtain ⟨⟨operand, _⟩, found, ⟨⟩⟩ := Option.map_eq_some_iff.mp taken
      obtain ⟨run, rfl, spells, canonical, single⟩ := ih _ _ _ found
      rw [List.length_append, Nat.add_sub_cancel, List.take_left]
      exact ⟨token :: run, rfl, .literal kind spells, ⟨single, canonical⟩, rfl⟩
    rcases Option.or_eq_some_iff.mp taken with applied | ⟨-, taken⟩
    · obtain ⟨op, inside, _, signed, taken⟩ := Attempt.result?_andThen_eq_some.mp applied
      rw [Attempt.result?_map] at taken
      obtain ⟨⟨operand, _⟩, taken, ⟨⟩⟩ := Option.map_eq_some_iff.mp taken
      rw [Attempt.result?_select_cons] at signed
      obtain ⟨_, found, ⟨⟩⟩ := Option.map_eq_some_iff.mp signed
      obtain ⟨run, rfl, spells, canonical, single⟩ := ih _ _ _ taken
      exact ⟨token :: run, rfl, .unary (prefixOperator?_iff.mp found) spells, ⟨single, canonical⟩, rfl⟩
    · exact sound_atom sound _ fewer _ _ taken

/-- What an operator of a level can stand before. -/
def Fits (adding : Bool) (operand : Expr) : Prop :=
  if adding then operand.isSum = false else operand.isBinary = false

theorem sound_chain {adding : Bool}
    (sound : ∀ tokens fewer, Sound text (Fits adding) tokens (operand tokens fewer))
    (tokens : List Token) (fewer : tokens.length < bound) :
    Sound text (fun expr => adding = false → expr.isSum = false) tokens
      (chain adding operand tokens fewer) := by
  intro expr rest taken
  cases first : (operand tokens fewer).result? with
  | none =>
    rw [chain, Attempt.result?_foldl_of_none first] at taken
    nomatch taken
  | some found =>
    obtain ⟨value, after⟩ := found
    obtain ⟨run, whole, spells, canonical, level⟩ := sound _ _ _ _ first
    have goesOn : (chain adding operand tokens fewer).GoesOn _ _ _ _ := Attempt.goesOn_foldl first
    obtain ⟨_, _, reached, kept⟩ := goesOn.keeps
      (P := Spelled text (fun expr => adding = false → expr.isSum = false) tokens)
      ⟨run, whole, spells, canonical, by rintro rfl; exact isSum_of_isBinary level⟩
      fun left rest shorter => by
        rintro ⟨op, right⟩ after ⟨front, rfl, spells, canonical, level⟩ taken
        obtain ⟨sign, behind, _, rfl, kind, rfl, -, taken⟩ := result?_followed.mp taken
        obtain ⟨run, rfl, spelled, shaped, fits⟩ := sound _ _ _ _ taken
        refine ⟨front ++ sign :: run, by simp, .binary kind spells spelled,
          ⟨?_, canonical, shaped⟩, id⟩
        unfold Fits at fits
        split
        case isTrue adding => rwa [if_pos adding] at fits
        case isFalse other =>
          rw [if_neg other] at fits
          exact ⟨level (by simpa using other), fits⟩
    rw [reached] at taken
    cases taken
    exact kept

/-- The tokens that an expression takes spell it. -/
theorem sound_expression (text : List Char) (tokens : List Token) :
    Sound text (fun _ => True) tokens (expression text tokens) := by
  fun_induction expression text tokens with
  | case1 tokens nested ih =>
    have factors : ∀ tokens fewer, Sound text (Fits false) tokens (prefixed text nested tokens fewer) :=
      sound_prefixed ih
    have terms : ∀ tokens fewer, Sound text (Fits true) tokens (Expr.term text nested tokens fewer) := by
      intro tokens fewer expr rest taken
      obtain ⟨run, whole, spells, canonical, level⟩ := sound_chain factors _ _ _ _ taken
      exact ⟨run, whole, spells, canonical, level rfl⟩
    intro expr rest taken
    obtain ⟨run, whole, spells, canonical, -⟩ := sound_chain terms _ _ _ _ taken
    exact ⟨run, whole, spells, canonical, trivial⟩

end Soundness

section Completeness

/-- The parser of what stands in parentheses. -/
def inside (text : List Char) (bound : Nat) : Parser bound Expr := fun tokens _ =>
  expression text tokens

theorem expression_eq (text : List Char) (tokens : List Token) :
    expression text tokens = sum text (inside text tokens.length) tokens (Nat.lt_succ_self _) := by
  rw [expression]
  rfl

variable {bound : Nat} {nested operand : Parser bound Expr} {sign : Token} {rest after : List Token}
  {fewer : (sign :: rest).length < bound + 1} {inner : Expr}

theorem prefixed_literal (fewer : (sign :: rest).length < bound + 1) (kind : sign.kind = .operator .equals)
    (taken : ∀ fewer, (prefixed text nested rest fewer).result? = some (inner, after)) :
    (prefixed text nested (sign :: rest) fewer).result? =
      some (literal (textOf text (rest.take (rest.length - after.length))) inner, after) := by
  rw [prefixed]
  simp only [Attempt.result?_orElse]
  refine Option.or_eq_some_iff.mpr (.inl (Attempt.result?_andThen_eq_some.mpr ?_))
  refine ⟨(), rest, Nat.lt_succ_self _, result?_sign.mpr ⟨sign, rfl, kind⟩, ?_⟩
  rw [Attempt.result?_mapWith, taken]
  rfl

/-- A token of another kind than a sign is refused as one. -/
theorem andThen_sign_eq_none {α : Type} {kind : Token.Kind}
    {next : Unit → (rest : List Token) → rest.length < tokens.length → Attempt α rest.length}
    (other : ∀ token rest, tokens = token :: rest → token.kind ≠ kind) :
    ((Expr.sign kind tokens).andThen next).result? = none := by
  refine Attempt.result?_andThen_eq_none (Option.eq_none_iff_forall_ne_some.mpr fun found taken => ?_)
  obtain ⟨token, same, equal⟩ := result?_sign.mp taken
  exact other token _ same equal

theorem prefixed_unary {op : UnaryOp} (kind : sign.kind = .operator op.operator)
    (taken : ∀ fewer, (prefixed text nested rest fewer).result? = some (inner, after)) :
    (prefixed text nested (sign :: rest) fewer).result? = some (unary op inner, after) := by
  rw [prefixed]
  simp only [Attempt.result?_orElse]
  refine Option.or_eq_some_iff.mpr (.inr ⟨andThen_sign_eq_none ?_, ?_⟩)
  · rintro _ _ ⟨⟩ equals
    rw [kind] at equals
    cases op <;> nomatch equals
  refine Option.or_eq_some_iff.mpr (.inl (Attempt.result?_andThen_eq_some.mpr ?_))
  refine ⟨op, rest, Nat.lt_succ_self _, ?_, ?_⟩
  · rw [Attempt.result?_select_cons, prefixOperator?_iff.mpr kind]
    rfl
  · rw [Attempt.result?_map, taken]
    rfl

/-- A token that is no operator starts an atom. -/
theorem prefixed_atom (other : ∀ operator, sign.kind ≠ .operator operator) :
    (prefixed text nested (sign :: rest) fewer).result? =
      (atom nested (sign :: rest) fewer).result? := by
  rw [prefixed]
  simp only [Attempt.result?_orElse]
  have noLiteral {α : Type} {next : Unit → (tokens : List Token) →
      tokens.length < (sign :: rest).length → Attempt α tokens.length} :
      ((Expr.sign (.operator .equals) (sign :: rest)).andThen next).result? = none :=
    andThen_sign_eq_none (by rintro _ _ ⟨⟩; exact other _)
  have noUnary : (Attempt.select prefixOperator? (sign :: rest)).result? = none := by
    rw [Attempt.result?_select_cons, Option.map_eq_none_iff]
    refine Option.eq_none_iff_forall_ne_some.mpr fun op found => ?_
    exact other _ (prefixOperator?_iff.mp found)
  rw [noLiteral, Option.none_or, Attempt.result?_andThen_eq_none noUnary, Option.none_or]

theorem atom_leaf {leaf : Expr} (found : ofToken? sign.kind = some leaf) :
    (atom nested (sign :: rest) fewer).result? = some (leaf, rest) := by
  rw [atom, Attempt.result?_orElse, Attempt.result?_select_cons, found]
  rfl

theorem atom_group {closing : Token} (opens : sign.kind = .leftParen)
    (closes : closing.kind = .rightParen)
    (taken : ∀ fewer, (nested rest fewer).result? = some (inner, closing :: after)) :
    (atom nested (sign :: rest) fewer).result? = some (group inner, after) := by
  rw [atom, Attempt.result?_orElse, Attempt.result?_select_cons, opens]
  refine Option.or_eq_some_iff.mpr (.inr ⟨rfl, Attempt.result?_andThen_eq_some.mpr ?_⟩)
  have shorter := Nat.lt_of_succ_lt_succ fewer
  refine ⟨(), rest, Nat.lt_succ_self _, result?_sign.mpr ⟨sign, rfl, opens⟩, ?_⟩
  refine Attempt.result?_andThen_eq_some.mpr ⟨inner, closing :: after,
    Attempt.length_of_result? (taken shorter), taken _, ?_⟩
  have closed : (Expr.sign .rightParen (closing :: after)).result? = some ((), after) :=
    result?_sign.mpr ⟨closing, rfl, closes⟩
  rw [Attempt.result?_map, closed]
  rfl

/-- Operands and operators of a level have been taken up to some point. -/
def Chained (adding : Bool) (operand : Parser bound Expr) (tokens : List Token)
    (fewer : tokens.length < bound) (left : Expr) (rest : List Token) : Prop :=
  (chain adding operand tokens fewer).GoesOn ((followed adding operand).narrow fewer) extended left
    rest

variable {adding : Bool} {tokens : List Token} {fewer : tokens.length < bound} {left right : Expr}
  {op : BinaryOp}

/-- Behind an operator of the level the operand is taken as well. -/
theorem Chained.step (chained : Chained adding operand tokens fewer left (sign :: rest))
    (kind : sign.kind = .operator op.operator) (level : op.isAdding = adding)
    (follows : rest.head?.any Token.isRegister = false)
    (taken : ∀ fewer, (operand rest fewer).result? = some (right, after)) :
    Chained adding operand tokens fewer (binary op left right) after :=
  Attempt.GoesOn.step chained fun shorter =>
    result?_followed.mpr ⟨sign, rest, Nat.lt_of_succ_lt (Nat.lt_trans shorter fewer), rfl, kind,
      level, follows, taken _⟩

theorem Chained.stop (chained : Chained adding operand tokens fewer left rest) (ends : Ends adding rest) :
    (chain adding operand tokens fewer).result? = some (left, rest) :=
  Attempt.GoesOn.stop chained fun _ => ends.not_followed

/-- Nothing that has been taken is given back. -/
theorem Chained.reaches (chained : Chained adding operand tokens fewer left rest) :
    ∃ expr final, (chain adding operand tokens fewer).result? = some (expr, final) ∧
      final.length ≤ rest.length := by
  refine Attempt.GoesOn.keeps chained (P := fun _ final => final.length ≤ rest.length) (Nat.le_refl _) ?_
  rintro _ _ _ _ final shorter taken
  exact Nat.le_of_lt (Nat.lt_of_lt_of_le (Attempt.length_of_result? taken) shorter)

theorem chained_operand (taken : (operand tokens fewer).result? = some (left, rest)) :
    Chained adding operand tokens fewer left rest :=
  Attempt.goesOn_foldl taken

end Completeness

/-- How the tokens of an expression are taken, whatever stands behind them: as an operand of unary
operators, as a term or as a whole, as far as its root allows. -/
structure Legible (text : List Char) (run : List Token) (expr : Expr) : Prop where
  operand : expr.isBinary = false → ∀ bound tokens rest fewer, tokens = run ++ rest →
    (prefixed text (inside text bound) tokens fewer).result? = some (expr, rest)
  term : expr.isSum = false → ∀ bound tokens rest fewer, tokens = run ++ rest →
    Chained false (prefixed text (inside text bound)) tokens fewer expr rest
  whole : ∀ bound tokens rest fewer, tokens = run ++ rest → Ends false rest →
    Chained true (Expr.term text (inside text bound)) tokens fewer expr rest
  reaches : ∀ bound tokens rest fewer, tokens = run ++ rest → ∃ longer final,
    (sum text (inside text bound) tokens fewer).result? = some (longer, final) ∧
      final.length ≤ rest.length

section Legible

variable {run : List Token}

theorem Legible.of_term
    (operand : expr.isBinary = false → ∀ bound tokens rest fewer, tokens = run ++ rest →
      (prefixed text (inside text bound) tokens fewer).result? = some (expr, rest))
    (term : ∀ bound tokens rest fewer, tokens = run ++ rest →
      Chained false (prefixed text (inside text bound)) tokens fewer expr rest) :
    Legible text run expr where
  operand := operand
  term _ := term
  whole bound tokens rest fewer split ends :=
    chained_operand ((term bound tokens rest fewer split).stop ends)
  reaches bound tokens rest fewer split := by
    obtain ⟨longer, final, taken, shorter⟩ := (term bound tokens rest fewer split).reaches
    have chained : Chained true (Expr.term text (inside text bound)) tokens fewer longer final :=
      chained_operand taken
    obtain ⟨whole, last, taken, fewer⟩ := chained.reaches
    exact ⟨whole, last, taken, Nat.le_trans fewer shorter⟩

theorem Legible.of_operand (operand : ∀ bound tokens rest fewer, tokens = run ++ rest →
      (prefixed text (inside text bound) tokens fewer).result? = some (expr, rest)) :
    Legible text run expr :=
  .of_term (fun _ => operand) fun bound tokens rest fewer split =>
    chained_operand (operand bound tokens rest fewer split)

/-- What stands before the end or before a closing parenthesis is taken as a whole. -/
theorem Legible.expression (legible : Legible text run expr) (rest : List Token)
    (ends : ∀ adding, Ends adding rest) :
    (Expr.expression text (run ++ rest)).result? = some (expr, rest) := by
  rw [expression_eq]
  exact (legible.whole _ _ rest (Nat.lt_succ_self _) rfl (ends false)).stop (ends true)

section Binary

variable {sign : Token} {op : BinaryOp} {first second : List Token} {left right : Expr}
  (kind : sign.kind = .operator op.operator) (before : Legible text first left)
  (after : Legible text second right) (spells : Spells text second right)

include kind before after spells

theorem Legible.product (level : op.isAdding = false) (term : left.isSum = false)
    (single : right.isBinary = false) :
    Legible text (first ++ sign :: second) (binary op left right) := by
  refine .of_term nofun fun bound tokens rest fewer split => ?_
  rw [List.append_assoc] at split
  have upTo := before.term term bound tokens (sign :: (second ++ rest)) fewer split
  exact upTo.step kind level (spells.head_not_register rest) fun fewer =>
    after.operand single bound _ rest fewer rfl

theorem Legible.sum (level : op.isAdding = true) (term : right.isSum = false) :
    Legible text (first ++ sign :: second) (binary op left right) := by
  -- The left operand is taken up to the sign, be it a term or a sum itself.
  have upTo (bound : Nat) (tokens rest : List Token) (fewer : tokens.length < bound + 1)
      (split : tokens = first ++ sign :: second ++ rest) :
      Chained true (Expr.term text (inside text bound)) tokens fewer left
        (sign :: (second ++ rest)) := by
    rw [List.append_assoc] at split
    exact before.whole bound tokens _ fewer split (ends_operator kind (by rw [level]; nofun))
  refine ⟨nofun, fun other => ?term, fun bound tokens rest fewer split ends => ?whole,
    fun bound tokens rest fewer split => ?reaches⟩
  case term => nomatch level.symm.trans other
  case whole =>
    exact (upTo bound tokens rest fewer split).step kind level (spells.head_not_register rest)
      fun fewer => (after.term term bound _ rest fewer rfl).stop ends
  case reaches =>
    have shorter : (second ++ rest).length < bound + 1 := by
      rw [split, List.append_assoc, List.length_append, List.cons_append, List.length_cons] at fewer
      omega
    obtain ⟨operand, left, taken, bounded⟩ := (after.term term bound _ rest shorter rfl).reaches
    have chained := (upTo bound tokens rest fewer split).step kind level
      (spells.head_not_register rest) fun _ => taken
    obtain ⟨longer, final, taken, shorter⟩ := chained.reaches
    exact ⟨longer, final, taken, Nat.le_trans shorter bounded⟩

end Binary

/-- The tokens of an expression that is of the right shape are taken as that expression. -/
theorem Spells.legible (spells : Spells text run expr) (canonical : expr.Canonical) :
    Legible text run expr := by
  induction spells with
  | @leaf token leaf found =>
    refine .of_operand fun bound tokens rest fewer split => ?_
    obtain rfl : tokens = token :: rest := split
    have other : ∀ operator, token.kind ≠ .operator operator := by
      intro operator kind
      rw [kind] at found
      nomatch found
    exact (prefixed_atom other).trans (atom_leaf found)
  | @unary sign op others operand kind spells ih =>
    obtain ⟨single, canonical⟩ := canonical
    refine .of_operand fun bound tokens rest fewer split => ?_
    obtain rfl : tokens = sign :: (others ++ rest) := split
    exact prefixed_unary kind fun fewer => (ih canonical).operand single bound _ rest fewer rfl
  | @literal sign others operand kind spells ih =>
    obtain ⟨single, canonical⟩ := canonical
    refine .of_operand fun bound tokens rest fewer split => ?_
    obtain rfl : tokens = sign :: (others ++ rest) := split
    have pooled := prefixed_literal fewer kind fun fewer =>
      (ih canonical).operand single bound _ rest fewer rfl
    rwa [List.length_append, Nat.add_sub_cancel, List.take_left] at pooled
  | @binary sign op first second left right kind _ spells before after =>
    obtain ⟨levels, leftCanonical, rightCanonical⟩ := canonical
    cases level : op.isAdding with
    | true =>
      rw [if_pos level] at levels
      exact .sum kind (before leftCanonical) (after rightCanonical) spells level levels
    | false =>
      rw [if_neg (by rw [level]; nofun)] at levels
      exact .product kind (before leftCanonical) (after rightCanonical) spells level levels.1 levels.2
  | @group opening closing within inner left right _ ih =>
    refine .of_operand fun bound tokens rest fewer split => ?_
    obtain rfl : tokens = opening :: (within ++ closing :: rest) := by simpa using split
    have other : ∀ operator, opening.kind ≠ .operator operator := by
      rw [left]
      exact nofun
    have taken := (ih canonical).expression (closing :: rest) fun _ => ends_closing right
    exact (prefixed_atom other).trans (atom_group left right fun _ => taken)

end Legible

section Parsing

theorem parseComplete_eq_ok :
    parseComplete tokens text = .ok expr ↔ (expression text tokens).result? = some (expr, []) := by
  unfold parseComplete Attempt.result?
  dsimp only
  cases (expression text tokens).taken with
  | none => exact ⟨nofun, nofun⟩
  | some found =>
    obtain ⟨other, rest, fewer⟩ := found
    dsimp only [Option.map_some]
    split
    case isTrue all =>
      subst all
      exact ⟨fun | rfl => rfl, fun | rfl => rfl⟩
    case isFalse left =>
      refine ⟨nofun, fun same => ?_⟩
      cases same
      exact absurd rfl left

/-- The tokens that spell an expression of the right shape are parsed as it, and no others. -/
theorem parseComplete_iff_spells :
    parseComplete tokens text = .ok expr ↔ Spells text tokens expr ∧ expr.Canonical := by
  rw [parseComplete_eq_ok]
  constructor
  · intro taken
    obtain ⟨run, rfl, spells, canonical, -⟩ := sound_expression text tokens expr [] taken
    rw [List.append_nil]
    exact ⟨spells, canonical⟩
  · rintro ⟨spells, canonical⟩
    have taken := (spells.legible canonical).expression [] fun _ => ends_nil
    rwa [List.append_nil] at taken

/-- All tokens of a text are read as an expression exactly when the grammar has them as this one: the
kinds of the tokens are those that the expression is written with, in order, operands are of the
levels that their operators take, and the key of each literal is the text of its operand. There is at
most one such expression. -/
theorem parseComplete_iff (text : List Char) (anyCase : Bool) :
    let tokens := tokenize text anyCase
    (∀ expr, parseComplete tokens text = .ok expr ↔
      tokens.map (·.kind) = expr.yield ∧ expr.Canonical ∧ expr.Quoted text tokens) ∧
    ∀ one other : Expr,
      tokens.map (·.kind) = one.yield ∧ one.Canonical ∧ one.Quoted text tokens →
      tokens.map (·.kind) = other.yield ∧ other.Canonical ∧ other.Quoted text tokens →
      one = other := by
  intro tokens
  have accepts (expr : Expr) : parseComplete tokens text = .ok expr ↔
      tokens.map (·.kind) = expr.yield ∧ expr.Canonical ∧ expr.Quoted text tokens := by
    rw [parseComplete_iff_spells]
    constructor
    · rintro ⟨spells, canonical⟩
      obtain ⟨written, quoted⟩ := spells.yield_quoted
      exact ⟨written, canonical, quoted⟩
    · rintro ⟨written, canonical, quoted⟩
      exact ⟨spells_of_yield written quoted, canonical⟩
  refine ⟨accepts, fun one other first second => ?_⟩
  have same := ((accepts one).mpr first).symm.trans ((accepts other).mpr second)
  exact Except.ok.inj same

/-- Signs that are unary or binary by their place, and a literal whose key is its operand's text. -/
example : (parseComplete (tokenize "-A*#B- = < 3".toList false) "-A*#B- = < 3".toList).toOption =
    some (.binary .subtract
      (.binary .multiply (.unary .minus (.symbol ⟨none, "A"⟩))
        (.unary .complement (.symbol ⟨none, "B"⟩)))
      (.literal "< 3" (.unary .maskLeft (.number "3")))) := by
  decide +kernel

end Parsing

end Expr

end CrayAssembler
