import CrayAssembler.Proofs.Expr.Longest
import CrayAssembler.Proofs.Pattern.Walk

namespace CrayAssembler

namespace Matcher

variable {α : Type}

section Sound

variable {node : Node α} {anyCase atStart : Bool} {text : List Char} {item : PatternItem}
  {items : List PatternItem} {token : Token} {tokens rest : List Token}

theorem Node.child?_eq_some {next : Node α} (child : node.child? item = some next) :
    next = node.after item := by
  rcases node.child?_eq item with none | some
  · nomatch none.symm.trans child
  · exact Option.some.inj (child.symm.trans some)

/-- Whichever is preferred, the class or the register itself, it is one that the register fits. -/
theorem registerChild?_sound {register : Register} {next : Option Token} {reached : Node α}
    (child : byRows.registerChild? node register next = some reached) :
    ∃ number, (number = none ∨ number = some register.number) ∧
      reached = node.after (.register register.kind number) := by
  unfold Graph.registerChild? at child
  dsimp only at child
  split at child
  case h_1 fixed general isFixed isGeneral =>
    split at child
    · exact ⟨_, .inr rfl, Option.some.inj child ▸ Node.child?_eq_some isFixed⟩
    · exact ⟨_, .inl rfl, Option.some.inj child ▸ Node.child?_eq_some isGeneral⟩
  case h_2 =>
    rcases Option.or_eq_some_iff.mp child with isFixed | ⟨-, isGeneral⟩
    · exact ⟨_, .inr rfl, Node.child?_eq_some isFixed⟩
    · exact ⟨_, .inl rfl, Node.child?_eq_some isGeneral⟩

/-- A token that is an item by itself is taken for an item that it fits. -/
theorem moveToken?_sound {reached : Node α} {arg : Option Arg}
    (moved : byRows.moveToken? node anyCase atStart token rest.head? = some (reached, arg)) :
    ∃ item, reached = node.after item ∧ Takes anyCase text item (token :: rest) arg rest := by
  unfold Graph.moveToken? at moved
  split at moved
  case h_1 register kind =>
    obtain ⟨child, found, same⟩ := Option.map_eq_some_iff.mp moved
    cases same
    obtain ⟨number, fixed, after⟩ := registerChild?_sound found
    refine ⟨_, after, ?_⟩
    rcases fixed with rfl | rfl
    · exact .general kind
    · exact .named kind
  case h_2 operator kind =>
    dsimp only at moved
    split at moved
    · nomatch moved
    · obtain ⟨child, found, same⟩ := Option.map_eq_some_iff.mp moved
      cases same
      exact ⟨_, Node.child?_eq_some found, .operator kind⟩
  case h_3 word kind =>
    split at moved
    · obtain ⟨child, found, same⟩ := Option.map_eq_some_iff.mp moved
      cases same
      exact ⟨_, Node.child?_eq_some found, .mnemonic kind⟩
    · nomatch moved
  case h_4 => nomatch moved

theorem moveExpression_sound {reached : Move (Node α)}
    (moved : byRows.moveExpression node text (token :: rest) = .ok reached) :
    reached.node = node.after .expression ∧
      Takes anyCase text .expression (token :: rest) reached.arg (rest.drop reached.taken) := by
  unfold Graph.moveExpression at moved
  split at moved
  case h_1 => nomatch moved
  case h_2 next child =>
    split at moved
    case h_1 => nomatch moved
    case h_2 expr used longest =>
      cases moved
      refine ⟨Node.child?_eq_some child, ?_⟩
      obtain ⟨first, run, after, same, rfl, complete⟩ := Expr.complete_of_parseLongest longest
      obtain ⟨rfl, rfl⟩ : token = first ∧ rest = run ++ after := List.cons.inj same
      have left : (run ++ after).drop (run.length + 1 - 1) = after := List.drop_left
      rw [left]
      exact .expression complete longest

/-- One step of the walk takes an item and the tokens of that item. -/
theorem move_sound {reached : Move (Node α)}
    (moved : byRows.move node text anyCase atStart token rest = .ok reached) :
    ∃ item, reached.node = node.after item ∧
      Takes anyCase text item (token :: rest) reached.arg (rest.drop reached.taken) := by
  unfold Graph.move at moved
  split at moved
  case isTrue comma =>
    split at moved
    case h_1 next child =>
      cases moved
      exact ⟨_, Node.child?_eq_some child, .comma comma⟩
    case h_2 => nomatch moved
  case isFalse =>
    split at moved
    case h_1 next arg found =>
      cases moved
      exact moveToken?_sound found
    case h_2 => exact ⟨_, moveExpression_sound moved⟩

/-- The walk through a field takes items of which the tokens are an instance. -/
theorem walk_sound {given args : List Arg} {skip : Nat} {final : Node α}
    (walked : byRows.walk text anyCase node given atStart skip tokens = .ok (final, args)) :
    ∃ items taken, final = node.afterAll items ∧
      Fits anyCase text items (tokens.drop skip) taken ∧ args = given ++ taken := by
  -- The tokens of an expression are passed over one by one, so the induction is on all tokens.
  induction tokens generalizing node given atStart skip with
  | nil =>
    cases walked
    exact ⟨[], [], rfl, by rw [List.drop_nil]; exact .nil, (List.append_nil _).symm⟩
  | cons token rest ih =>
    cases skip with
    | succ more => exact ih walked
    | zero =>
      rw [Graph.walk] at walked
      split at walked
      case h_1 => cases walked
      case h_2 reached moved =>
        obtain ⟨item, after, takes⟩ := move_sound moved
        obtain ⟨items, taken, rfl, fits, rfl⟩ := ih walked
        refine ⟨item :: items, reached.arg.toList ++ taken, ?_, .cons takes fits, ?_⟩
        · rw [after]
          rfl
        · rw [List.append_assoc]

theorem Node.mem_of_handler? {handler : α} (ended : node.handler? = some handler) :
    ⟨[], handler⟩ ∈ node := by
  obtain ⟨row, found, rfl⟩ := Option.map_eq_some_iff.mp ended
  have member := List.mem_of_find?_eq_some found
  have done : row.items = [] := by simpa using List.find?_some found
  rwa [← done]

/-- A pattern is found at the end of a walk through both fields with a field delimiter between them. -/
theorem walks_of_find {matcher : Matcher α} {result operand : FieldTokens} {found : Found α}
    (success : matcher.find result operand anyCase = .ok found) :
    ∃ middle first next final,
      byRows.walk result.text anyCase matcher.rows [] true 0 result.tokens = .ok (middle, first) ∧
      Node.child? middle .fieldDelimiter = some next ∧
      byRows.walk operand.text anyCase next first true 0 operand.tokens = .ok (final, found.args) ∧
      Node.handler? final = some found.handler := by
  unfold find Graph.find at success
  cases walked : byRows.walk result.text anyCase matcher.rows [] true 0 result.tokens with
  | error reason =>
    rw [walked] at success
    nomatch success
  | ok pair =>
    rw [walked] at success
    dsimp only [bind, Except.bind] at success
    split at success
    case h_1 => nomatch success
    case h_2 next child =>
      cases rewalked : byRows.walk operand.text anyCase next pair.2 true 0 operand.tokens with
      | error reason =>
        rw [rewalked] at success
        nomatch success
      | ok last =>
        rw [rewalked] at success
        dsimp only at success
        split at success
        case h_1 handler ended =>
          cases success
          exact ⟨pair.1, pair.2, next, last.1, rfl, child, rewalked, ended⟩
        case h_2 => nomatch success

/-- What is found belongs to a row that the statement is an instance of. -/
theorem instance_of_find {matcher : Matcher α} {result operand : FieldTokens} {found : Found α}
    (success : matcher.find result operand anyCase = .ok found) :
    ∃ items, ⟨items, found.handler⟩ ∈ matcher.rows ∧
      Instance anyCase items result operand found.args := by
  obtain ⟨middle, first, next, final, walked, child, rewalked, ended⟩ := walks_of_find success
  obtain ⟨before, taken, rfl, fitsResult, same⟩ := walk_sound walked
  obtain rfl : first = taken := same
  obtain rfl := Node.child?_eq_some child
  obtain ⟨after, second, rfl, fitsOperand, args⟩ := walk_sound rewalked
  -- The row that ends at the last node, followed back to the whole pattern.
  have ending := Node.mem_after.mp (Node.mem_afterAll.mp (Node.mem_of_handler? ended))
  rw [List.append_nil] at ending
  exact ⟨_, Node.mem_afterAll.mp ending, before, after, first, second, rfl, fitsResult, fitsOperand,
    args⟩

end Sound

section Built

variable {patterns : List (String × α)} {matcher : Matcher α}

/-- Every row is that of a pattern, with the handler that was given for it. -/
def RowsFrom (patterns : List (String × α)) (matcher : Matcher α) : Prop :=
  ∀ row ∈ matcher.rows, ∃ pattern, (pattern, row.handler) ∈ patterns ∧
    PatternItem.ofPattern pattern = .ok row.items

theorem RowsFrom.insert {pattern : String} {handler : α} {next : Matcher α}
    (rows : RowsFrom patterns matcher) (inserted : matcher.insert pattern handler = .ok next) :
    RowsFrom (patterns ++ [(pattern, handler)]) next := by
  unfold Matcher.insert at inserted
  cases parsed : PatternItem.ofPattern pattern with
  | error reason =>
    rw [parsed] at inserted
    nomatch inserted
  | ok items =>
    rw [parsed] at inserted
    dsimp only [bind, Except.bind] at inserted
    split at inserted
    · nomatch inserted
    · cases inserted
      intro row member
      rcases List.mem_append.mp member with old | new
      · obtain ⟨pattern, given, read⟩ := rows row old
        exact ⟨pattern, List.mem_append_left _ given, read⟩
      · obtain rfl := List.mem_singleton.mp new
        exact ⟨pattern, List.mem_append_right _ (List.mem_singleton_self _), parsed⟩

theorem RowsFrom.insertAll {more : List (String × α)} {final : Matcher α}
    (rows : RowsFrom patterns matcher)
    (inserted : more.foldlM (fun matcher (pattern, handler) => matcher.insert pattern handler)
      matcher = .ok final) : RowsFrom (patterns ++ more) final := by
  induction more generalizing patterns matcher with
  | nil =>
    cases inserted
    rwa [List.append_nil]
  | cons given more ih =>
    rw [List.foldlM_cons] at inserted
    dsimp only at inserted
    cases one : matcher.insert given.1 given.2 with
    | error reason =>
      rw [one] at inserted
      nomatch inserted
    | ok next =>
      rw [one] at inserted
      have all := ih (rows.insert one) inserted
      rwa [List.append_assoc] at all

theorem rowsFrom_ofPatterns (built : ofPatterns patterns = .ok matcher) :
    RowsFrom patterns matcher :=
  RowsFrom.insertAll (List.forall_mem_nil _ : RowsFrom [] empty) built

/-- Matching is sound: if patterns can be put together at all, then what is found for the tokens of two
fields is the handler of one of the patterns, which reads as the items of a result field, one field
delimiter and the items of an operand field. The tokens of each field are an instance of its items,
and the arguments are the registers and expressions of both in order. -/
theorem find_sound {result operand : FieldTokens} {anyCase : Bool} {found : Found α}
    (built : ofPatterns patterns = .ok matcher)
    (success : matcher.find result operand anyCase = .ok found) :
    ∃ pattern before after first second, (pattern, found.handler) ∈ patterns ∧
      PatternItem.ofPattern pattern = .ok (before ++ .fieldDelimiter :: after) ∧
      .fieldDelimiter ∉ before ++ after ∧
      Fits anyCase result.text before result.tokens first ∧
      Fits anyCase operand.text after operand.tokens second ∧ found.args = first ++ second := by
  obtain ⟨items, member, before, after, first, second, rfl, fitsResult, fitsOperand, args⟩ :=
    instance_of_find success
  obtain ⟨pattern, given, read⟩ := rowsFrom_ofPatterns built _ member
  refine ⟨pattern, before, after, first, second, given, read, ?_, fitsResult, fitsOperand, args⟩
  intro inside
  rcases List.mem_append.mp inside with inside | inside
  · exact fitsResult.ne_delimiter _ inside rfl
  · exact fitsOperand.ne_delimiter _ inside rfl

/-- Patterns of which two begin with the same register, once by name and once by class. -/
def samplePatterns : List (String × Nat) :=
  [(",A0 Bjk,Ai", 1), (",Ah Si", 2), ("Ai $,Ah", 3), ("Ai $", 4), ("Ai Aj+Ak", 5), ("Ai PSj", 6)]

/-- An expression of several tokens is followed by the items after it. -/
theorem find_sound_indexed : ∃ matcher,
    ofPatterns samplePatterns = .ok matcher ∧
    matcher.find (.ofText "A1" false) (.ofText "LAB+1,A2" false) false = .ok ⟨3, [.register 1,
      .expression (.binary .add (.symbol ⟨none, "LAB"⟩) (.number "1")), .register 2]⟩ ∧
    ∃ pattern before after first second, (pattern, 3) ∈ samplePatterns ∧
      PatternItem.ofPattern pattern = .ok (before ++ .fieldDelimiter :: after) ∧
      .fieldDelimiter ∉ before ++ after ∧
      Fits false "A1".toList before (FieldTokens.ofText "A1" false).tokens first ∧
      Fits false "LAB+1,A2".toList after (FieldTokens.ofText "LAB+1,A2" false).tokens second ∧
      [.register 1, .expression (.binary .add (.symbol ⟨none, "LAB"⟩) (.number "1")), .register 2] =
        first ++ second := by
  have checked : (ofPatterns samplePatterns).toOption.any (fun matcher =>
      (matcher.find (.ofText "A1" false) (.ofText "LAB+1,A2" false) false).toOption.any
        fun found => found.handler = 3 ∧ found.args = [.register 1,
          .expression (.binary .add (.symbol ⟨none, "LAB"⟩) (.number "1")), .register 2]) = true := by
    decide +kernel
  cases built : ofPatterns samplePatterns with
  | error reason =>
    rw [built] at checked
    nomatch checked
  | ok matcher =>
    rw [built] at checked
    cases success : matcher.find (.ofText "A1" false) (.ofText "LAB+1,A2" false) false with
    | error reason =>
      simp [success, Except.toOption] at checked
    | ok found =>
      obtain ⟨handler, args⟩ := found
      simp only [success, Except.toOption, Option.any_some, decide_eq_true_eq] at checked
      obtain ⟨rfl, rfl⟩ := checked
      exact ⟨matcher, rfl, success, find_sound built success⟩

end Built

end Matcher

end CrayAssembler
