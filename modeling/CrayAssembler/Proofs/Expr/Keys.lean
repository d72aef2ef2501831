import CrayAssembler.Pattern.Matcher
import CrayAssembler.Proofs.Expr.Longest
import CrayAssembler.Proofs.Token.Places

namespace CrayAssembler

/-- Number of words of a literal with this text. -/
def LiteralPool.wordCount (key : String) : Nat :=
  match Text.constant? key.toList with
  | some constant => constant.pack.length
  | none => 1

namespace Expr

/-- Number of words of a literal with this operand. -/
def wordCount : Expr → Nat
  | .string constant => constant.pack.length
  | _ => 1

/-- The texts of all literals in an expression tell their lengths. -/
def Keyed : Expr → Prop
  | .unary _ operand => operand.Keyed
  | .binary _ left right => left.Keyed ∧ right.Keyed
  | .group inner => inner.Keyed
  | .literal key operand => LiteralPool.wordCount key = operand.wordCount ∧ operand.Keyed
  | _ => True

theorem keyed_rootUnary? {expr inner : Expr} {op : UnaryOp} (keyed : expr.Keyed)
    (found : expr.rootUnary? = some (op, inner)) : inner.Keyed := by
  fun_induction rootUnary? expr with
  | case1 op operand =>
    obtain ⟨⟩ := found
    exact keyed
  | case2 inner ih => exact ih keyed found
  | case3 => nomatch found

variable {text : List Char} {tokens : List Token} {expr : Expr}

theorem keyed_ofToken? {kind : Token.Kind} {leaf : Expr} (found : ofToken? kind = some leaf) :
    leaf.Keyed := by
  cases kind with
  | name | number | based | string | location =>
    obtain ⟨⟩ := found
    trivial
  | _ => nomatch found

theorem wordCount_literalKey (text : List Char) (start stop : Nat) :
    LiteralPool.wordCount (literalKey text start stop) =
      match Text.constant? (Text.trim (Text.slice text start stop)) with
      | some constant => constant.pack.length
      | none => 1 := by
  unfold LiteralPool.wordCount literalKey
  rw [String.toList_ofList]

/-- An operand that starts with a character constant is the constant, and any other is a word. -/
theorem Spells.operand_cases {next : Token} {rest : List Token} (spells : Spells text tokens expr)
    (split : tokens = next :: rest) (single : expr.isBinary = false) :
    (∃ constant, next.kind = .string constant ∧ rest = [] ∧ expr = .string constant) ∨
      next.isError = false ∧ (∀ constant, next.kind ≠ .string constant) ∧ expr.wordCount = 1 := by
  have other {kind : Token.Kind} (same : next.kind = kind) (valid : ∀ message, kind ≠ .error message)
      (noConstant : ∀ constant, kind ≠ .string constant) (one : expr.wordCount = 1) :
      next.isError = false ∧ (∀ constant, next.kind ≠ .string constant) ∧ expr.wordCount = 1 := by
    subst same
    refine ⟨?_, noConstant, one⟩
    unfold Token.isError
    split
    case h_1 message same => exact absurd same (valid message)
    · rfl
  cases spells with
  | leaf found =>
    cases split
    cases kind : next.kind with
    | string constant =>
      rw [kind] at found
      obtain ⟨⟩ := found
      exact .inl ⟨constant, rfl, rfl, rfl⟩
    | name | number | based | location =>
      rw [kind] at found
      obtain ⟨⟩ := found
      exact .inr (kind ▸ other kind nofun nofun rfl)
    | register | operator | leftParen | rightParen | comma | error =>
      rw [kind] at found
      nomatch found
  | unary kind | literal kind | group kind =>
    cases split
    exact .inr (other kind nofun nofun rfl)
  | binary => nomatch single

/-- The key of a literal is read as a constant exactly if its operand is one. -/
theorem Spells.wordCount_textOf (spells : Spells text tokens expr) (single : expr.isBinary = false)
    (begins : ∀ next ∈ tokens.head?, next.Begins text next.span.start) :
    LiteralPool.wordCount (textOf text tokens) = expr.wordCount := by
  obtain ⟨next, rest, rfl⟩ := List.exists_cons_of_ne_nil spells.ne_nil
  have here : next.Begins text next.span.start := begins next rfl
  have start : startOf (next :: rest) = next.span.start := rfl
  rw [textOf_eq, wordCount_literalKey, start]
  rcases spells.operand_cases rfl single with
    ⟨constant, kind, rfl, rfl⟩ | ⟨valid, noConstant, one⟩
  · have stop : stopOf [next] = next.span.stop := rfl
    rw [stop, here.constant constant kind]
    rfl
  · rw [here.other valid noConstant, one]

theorem Spells.keyed (spells : Spells text tokens expr) (canonical : expr.Canonical)
    (laid : Token.Laid text tokens) : expr.Keyed := by
  induction spells with
  | leaf found => exact keyed_ofToken? found
  | unary _ _ ih => exact ih canonical.2 laid.2
  | literal kind spells ih =>
    exact ⟨spells.wordCount_textOf canonical.1 (laid.1 kind), ih canonical.2 laid.2⟩
  | binary _ _ _ left right =>
    obtain ⟨-, leftCanonical, rightCanonical⟩ := canonical
    obtain ⟨first, -, second⟩ := laid.of_append
    exact ⟨left leftCanonical first, right rightCanonical second⟩
  | group _ _ _ ih => exact ih canonical laid.2.of_append.1

theorem keyed_parseComplete (laid : Token.Laid text tokens)
    (parsed : parseComplete tokens text = .ok expr) : expr.Keyed := by
  obtain ⟨spells, canonical⟩ := parseComplete_iff_spells.mp parsed
  exact spells.keyed canonical laid

theorem keyed_parseLongest {count : Nat} (laid : Token.Laid text tokens)
    (parsed : parseLongest tokens text = .ok (expr, count)) : expr.Keyed := by
  obtain ⟨token, run, rest, rfl, -, complete⟩ := complete_of_parseLongest parsed
  exact keyed_parseComplete laid.of_append.1 complete

end Expr

namespace Matcher

variable {α : Type}

/-- An argument that is an expression has only literals whose texts tell their lengths. -/
def Arg.Keyed : Arg → Prop
  | .register _ => True
  | .expression expr => expr.Keyed

theorem keyed_moveToken? {node next : Node α} {anyCase atStart : Bool} {token : Token}
    {later : Option Token} {taken : Option Arg}
    (moved : byRows.moveToken? node anyCase atStart token later = some (next, taken)) :
    ∀ arg ∈ taken, arg.Keyed := by
  unfold Graph.moveToken? at moved
  split at moved
  · obtain ⟨child, -, ⟨⟩⟩ := Option.map_eq_some_iff.mp moved
    rintro _ ⟨⟩
    trivial
  · dsimp only at moved
    split at moved
    · nomatch moved
    · obtain ⟨child, -, ⟨⟩⟩ := Option.map_eq_some_iff.mp moved
      exact nofun
  · split at moved
    · obtain ⟨child, -, ⟨⟩⟩ := Option.map_eq_some_iff.mp moved
      exact nofun
    · nomatch moved
  · nomatch moved

theorem keyed_move {node : Node α} {text : List Char} {anyCase atStart : Bool} {token : Token}
    {rest : List Token} {step : Move (Node α)} (laid : Token.Laid text (token :: rest))
    (moved : byRows.move node text anyCase atStart token rest = .ok step) :
    ∀ arg ∈ step.arg, arg.Keyed := by
  unfold Graph.move at moved
  split at moved
  · split at moved
    · obtain ⟨⟩ := moved
      exact nofun
    · nomatch moved
  · split at moved
    case h_1 next taken found =>
      obtain ⟨⟩ := moved
      exact keyed_moveToken? found
    · unfold Graph.moveExpression at moved
      split at moved
      · nomatch moved
      · split at moved
        · nomatch moved
        case h_2 expr used parsed =>
          obtain ⟨⟩ := moved
          rintro _ ⟨⟩
          exact Expr.keyed_parseLongest laid parsed

theorem keyed_walk {text : List Char} {anyCase atStart : Bool} {node last : Node α}
    {args found : List Arg} {skip : Nat} {tokens : List Token} (laid : Token.Laid text tokens)
    (known : ∀ arg ∈ args, arg.Keyed)
    (walked : byRows.walk text anyCase node args atStart skip tokens = .ok (last, found)) :
    ∀ arg ∈ found, arg.Keyed := by
  induction tokens generalizing node args atStart skip with
  | nil =>
    obtain ⟨⟩ := walked
    exact known
  | cons token rest ih =>
    unfold Graph.walk at walked
    dsimp only at walked
    split at walked
    · exact ih laid.2 known walked
    · split at walked
      · nomatch walked
      case h_2 step moved =>
        refine ih laid.2 (List.forall_mem_append.mpr ⟨known, ?_⟩) walked
        intro arg member
        exact keyed_move laid moved arg (Option.mem_toList.mp member)

/-- The expressions of a statement that is found have only literals whose texts tell their
lengths. -/
theorem keyed_find {matcher : Matcher α} {result operand : FieldTokens} {anyCase : Bool}
    {found : Found α} (resultLaid : Token.Laid result.text result.tokens)
    (operandLaid : Token.Laid operand.text operand.tokens)
    (success : matcher.find result operand anyCase = .ok found) : ∀ arg ∈ found.args, arg.Keyed := by
  unfold find Graph.find at success
  cases first : byRows.walk result.text anyCase matcher.rows [] true 0 result.tokens with
  | error reason =>
    rw [first] at success
    nomatch success
  | ok pair =>
    obtain ⟨afterResult, args⟩ := pair
    rw [first] at success
    dsimp only [bind, Except.bind] at success
    split at success
    · nomatch success
    case h_2 node _ =>
      cases second : byRows.walk operand.text anyCase node args true 0 operand.tokens with
      | error reason =>
        rw [second] at success
        nomatch success
      | ok pair =>
        obtain ⟨final, all⟩ := pair
        rw [second] at success
        dsimp only at success
        split at success
        · obtain ⟨⟩ := success
          exact keyed_walk operandLaid (keyed_walk resultLaid (List.forall_mem_nil _) first) second
        · nomatch success

end Matcher

end CrayAssembler
