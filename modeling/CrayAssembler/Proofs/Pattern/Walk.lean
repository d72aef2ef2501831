import CrayAssembler.Pattern.Matcher
import CrayAssembler.Proofs.Expr.Longest

namespace CrayAssembler

namespace Expr

variable {text : List Char} {token : Token} {rest : List Token} {found : Expr × Nat}

theorem spells_of_parseLongest (parsed : parseLongest (token :: rest) text = .ok found) :
    ∃ run after, rest = run ++ after ∧ Spells text (token :: run) found.1 := by
  obtain ⟨_, run, after, split, -, complete⟩ := complete_of_parseLongest parsed
  obtain ⟨rfl, rfl⟩ := List.cons.inj split
  exact ⟨run, after, rfl, (parseComplete_iff_spells.mp complete).1⟩

/-- No expression starts with a comma or with a register. -/
theorem head_of_parseLongest (parsed : parseLongest (token :: rest) text = .ok found) :
    token.kind ≠ .comma ∧ ∀ register, token.kind ≠ .register register := by
  obtain ⟨run, after, rfl, spells⟩ := spells_of_parseLongest parsed
  obtain ⟨_, _, ⟨⟩, comma, other, -⟩ := spells.head
  refine ⟨comma, fun register kind => ?_⟩
  rw [Token.isRegister, kind] at other
  cases other

/-- An operator that starts an expression does not stand before a register. -/
theorem next_of_parseLongest {operator : Operator} (sign : token.kind = .operator operator)
    (parsed : parseLongest (token :: rest) text = .ok found) :
    rest.head?.any Token.isRegister = false := by
  obtain ⟨run, after, rfl, spells⟩ := spells_of_parseLongest parsed
  obtain ⟨_, _, ⟨⟩, -, -, next⟩ := spells.head
  obtain ⟨some, other⟩ := next operator sign
  obtain ⟨second, more, rfl⟩ := List.exists_cons_of_ne_nil some
  exact other

end Expr

namespace Matcher

variable {α : Type}

/-- An item takes tokens from the front and leaves the rest of the field. An expression has to be
what would be taken there for the longest one. -/
inductive Takes (anyCase : Bool) (text : List Char) :
    PatternItem → List Token → Option Arg → List Token → Prop
  | comma {token : Token} {rest : List Token} (kind : token.kind = .comma) :
      Takes anyCase text .subfieldDelimiter (token :: rest) none rest
  /-- Any register of a class. -/
  | general {token : Token} {rest : List Token} {register : Register}
      (kind : token.kind = .register register) :
      Takes anyCase text (.register register.kind none) (token :: rest)
        (some (.register register.number)) rest
  /-- The register that the pattern names. -/
  | named {token : Token} {rest : List Token} {register : Register}
      (kind : token.kind = .register register) :
      Takes anyCase text (.register register.kind (some register.number)) (token :: rest)
        (some (.register register.number)) rest
  | operator {token : Token} {rest : List Token} {operator : Operator}
      (kind : token.kind = .operator operator) :
      Takes anyCase text (.operator operator) (token :: rest) none rest
  | mnemonic {token : Token} {rest : List Token} {word : String}
      (kind : token.kind = .name ⟨none, word⟩) :
      Takes anyCase text (.mnemonic (if anyCase then Text.upper word else word)) (token :: rest)
        none rest
  | expression {token : Token} {run rest : List Token} {whole expr : Expr}
      (complete : Expr.parseComplete (token :: run) text = .ok whole)
      (longest : Expr.parseLongest (token :: run ++ rest) text = .ok (expr, run.length + 1)) :
      Takes anyCase text .expression (token :: run ++ rest) (some (.expression expr)) rest

/-- A leaf that is the last token of a field is taken as an expression. -/
theorem takes_leaf {anyCase : Bool} {text : List Char} {token : Token} {leaf : Expr}
    (found : Expr.ofToken? token.kind = some leaf) :
    Takes anyCase text .expression [token] (some (.expression leaf)) [] := by
  have canonical := (Expr.kind_of_ofToken? found).2.2.1
  have complete : Expr.parseComplete [token] text = .ok leaf :=
    Expr.parseComplete_iff_spells.mpr ⟨.leaf found, canonical⟩
  exact @Takes.expression _ _ token [] [] leaf leaf complete (Expr.parseLongest_of_all complete)

/-- The tokens of a field are an instance of items. -/
inductive Fits (anyCase : Bool) (text : List Char) :
    List PatternItem → List Token → List Arg → Prop
  | nil : Fits anyCase text [] [] []
  | cons {item : PatternItem} {items : List PatternItem} {tokens rest : List Token}
      {arg : Option Arg} {args : List Arg} (takes : Takes anyCase text item tokens arg rest)
      (fits : Fits anyCase text items rest args) :
      Fits anyCase text (item :: items) tokens (arg.toList ++ args)

/-- A field has no field delimiter in it. -/
theorem Fits.ne_delimiter {anyCase : Bool} {text : List Char} {items : List PatternItem}
    {tokens : List Token} {args : List Arg} (fits : Fits anyCase text items tokens args) :
    ∀ item ∈ items, item ≠ .fieldDelimiter := by
  induction fits with
  | nil => intro item member; cases member
  | cons takes fits ih =>
    intro item member
    rcases List.mem_cons.mp member with rfl | member
    · cases takes <;> simp
    · exact ih item member

/-- A statement is an instance of the items of a pattern. -/
def Instance (anyCase : Bool) (items : List PatternItem) (result operand : FieldTokens)
    (args : List Arg) : Prop :=
  ∃ before after first second, items = before ++ .fieldDelimiter :: after ∧
    Fits anyCase result.text before result.tokens first ∧
    Fits anyCase operand.text after operand.tokens second ∧ args = first ++ second

@[simp] theorem byRows_child? (node : Node α) (item : PatternItem) :
    byRows.child? node item = node.child? item :=
  rfl

@[simp] theorem byRows_startsWith (node : Node α) (p : PatternItem → Bool) :
    byRows.startsWith node p = node.startsWith p :=
  rfl

@[simp] theorem byRows_handler? (node : Node α) : byRows.handler? node = node.handler? :=
  rfl

namespace Node

variable {node : Node α} {item : PatternItem} {items rest : List PatternItem} {handler : α}

/-- The node after several items. -/
def afterAll (node : Node α) (items : List PatternItem) : Node α :=
  items.foldl after node

theorem mem_after {row : Row α} :
    row ∈ node.after item ↔ ⟨item :: row.items, row.handler⟩ ∈ node := by
  rw [after, List.mem_filterMap]
  constructor
  · rintro ⟨⟨given, handler⟩, member, kept⟩
    cases given with
    | nil => cases kept
    | cons first rest =>
      by_cases same : first = item
      · simp only [same, if_true, Option.some.injEq] at kept
        subst kept same
        exact member
      · simp only [same, if_false, reduceCtorEq] at kept
  · intro member
    exact ⟨_, member, if_pos rfl⟩

theorem mem_afterAll {row : Row α} :
    row ∈ node.afterAll items ↔ ⟨items ++ row.items, row.handler⟩ ∈ node := by
  induction items generalizing node with
  | nil => exact Iff.rfl
  | cons item items ih => exact ih.trans mem_after

theorem child?_of_mem (member : ⟨item :: rest, handler⟩ ∈ node) :
    node.child? item = some (node.after item) := by
  have kept : ⟨rest, handler⟩ ∈ node.after item := mem_after.mpr member
  unfold child?
  split
  · rename_i empty
    rw [empty] at kept
    cases kept
  · rfl

theorem child?_eq (node : Node α) (item : PatternItem) :
    node.child? item = none ∨ node.child? item = some (node.after item) := by
  unfold child?
  split
  · exact .inl rfl
  · exact .inr rfl

theorem startsWith_of_mem {p : PatternItem → Bool} (member : ⟨item :: rest, handler⟩ ∈ node)
    (holds : p item = true) : node.startsWith p = true :=
  List.any_eq_true.mpr ⟨_, member, holds⟩

theorem child?_of_startsWith {p : PatternItem → Bool} (none : node.startsWith p = false)
    (holds : p item = true) : node.child? item = Option.none := by
  cases children : node.after item with
  | nil => rw [child?, children]
  | cons row rows =>
    have member : ⟨item :: row.items, row.handler⟩ ∈ node :=
      mem_after.mp (children ▸ List.mem_cons_self)
    rw [startsWith_of_mem member holds] at none
    cases none

theorem handler?_of_mem (member : ⟨[], handler⟩ ∈ node) :
    ∃ row ∈ node, row.items = [] ∧ node.handler? = some row.handler := by
  cases found : node.find? fun row => row.items.isEmpty with
  | none => exact absurd rfl (List.find?_eq_none.mp found _ member)
  | some row =>
    refine ⟨row, List.mem_of_find?_eq_some found, ?_, congrArg (Option.map _) found⟩
    exact List.isEmpty_iff.mp (List.find?_some (p := fun row : Row α => row.items.isEmpty) found)

end Node

/-- An item that is one of a register, whichever. -/
def isRegisterItem : PatternItem → Bool
  | .register _ _ => true
  | _ => false

/-- A register of a class that a pattern names. -/
def namesRegister (kind : RegisterClass) : PatternItem → Bool
  | .register other (some _) => other = kind
  | _ => false

def isOperatorItem : PatternItem → Bool
  | .operator _ => true
  | _ => false

def isMnemonicItem : PatternItem → Bool
  | .mnemonic _ => true
  | _ => false

/-- No other row of the node claims the token at which the item stands, given the items that follow
it. -/
def Node.settles (node : Node α) (atStart : Bool) (rest : List PatternItem) : PatternItem → Bool
  | .fieldDelimiter | .subfieldDelimiter => true
  | .register kind number => number.isSome || !node.startsWith (namesRegister kind)
  | .operator _ =>
    !(atStart && node.startsWith (· = .expression)) || rest.head?.any isRegisterItem
  | .expression =>
    (atStart || !node.startsWith isOperatorItem) &&
      (!node.startsWith isMnemonicItem || rest.head? = some .subfieldDelimiter)
  | .mnemonic _ => rest.head?.all (· = .fieldDelimiter)

/-- After a delimiter a subfield starts. -/
def isDelimiter (item : PatternItem) : Bool :=
  item = .subfieldDelimiter || item = .fieldDelimiter

/-- All of some items are settled, each at the node that those before it lead to. After an expression
nothing depends on where in its subfield the next item stands. -/
def Node.clear (node : Node α) (atStart : Bool) : List PatternItem → Bool
  | [] => true
  | item :: rest =>
    node.settles atStart rest item && (node.after item).clear (isDelimiter item) rest &&
      (item ≠ .expression || (node.after item).clear true rest)

section Follow

variable {node : Node α} {anyCase atStart : Bool} {text : List Char} {item : PatternItem}
  {items more : List PatternItem} {tokens rest : List Token} {arg : Option Arg} {args : List Arg}
  {handler : α}

/-- A node goes on with the token at which a row of it fits. -/
theorem accepts_of_fits (member : ⟨items ++ more, handler⟩ ∈ node)
    (ended : more.head?.all (· = .fieldDelimiter) = true)
    (fits : Fits anyCase text items rest args) : byRows.accepts node rest.head? = true := by
  cases fits with
  | nil =>
    cases more with
    | nil =>
      obtain ⟨row, -, -, found⟩ := Node.handler?_of_mem member
      simp [Graph.accepts, found]
    | cons item more =>
      have delimiter : item = .fieldDelimiter := by simpa using ended
      have starts := Node.startsWith_of_mem (p := (· = .fieldDelimiter)) member (by simpa using delimiter)
      simp [Graph.accepts, starts]
  | @cons item items _ remaining arg args takes fits =>
    cases takes with
    | comma kind =>
      have starts := Node.startsWith_of_mem (p := (· = .subfieldDelimiter)) member (by simp)
      simp [Graph.accepts, kind, starts]
    | @general token rest register kind =>
      simp only [Graph.accepts, kind, List.head?_cons, Option.map_some]
      exact Node.startsWith_of_mem member (by simp)
    | @named token rest register kind =>
      simp only [Graph.accepts, kind, List.head?_cons, Option.map_some]
      exact Node.startsWith_of_mem member (by simp)
    | @operator token rest operator kind =>
      simp only [Graph.accepts, kind, List.head?_cons, Option.map_some]
      exact Node.startsWith_of_mem member (by simp)
    | @mnemonic token rest word kind =>
      simp only [Graph.accepts, kind, List.head?_cons, Option.map_some]
      exact Node.startsWith_of_mem member (by simp)
    | @expression token run rest whole expr complete longest =>
      obtain ⟨noComma, noRegister⟩ := Expr.head_of_parseLongest longest
      simp only [Graph.accepts, List.cons_append, List.head?_cons, Option.map_some]
      split
      · rename_i absent
        cases absent
      · rename_i comma
        exact absurd (Option.some.inj comma) noComma
      · rename_i register named
        exact absurd (Option.some.inj named) (noRegister register)
      · exact Node.startsWith_of_mem member (by simp)
      · exact Node.startsWith_of_mem member rfl

theorem Fits.head_register (fits : Fits anyCase text items rest args)
    (ended : more.head?.all (· = .fieldDelimiter) = true)
    (register : (items ++ more).head?.any isRegisterItem = true) :
    rest.head?.any Token.isRegister = true := by
  cases fits with
  | nil =>
    cases more with
    | nil => cases register
    | cons item more =>
      have delimiter : item = .fieldDelimiter := by simpa using ended
      subst delimiter
      cases register
  | cons takes fits =>
    cases takes with
    | comma kind => cases register
    | general kind => simp [Token.isRegister, kind]
    | named kind => simp [Token.isRegister, kind]
    | operator kind => cases register
    | mnemonic kind => cases register
    | expression complete longest => cases register

/-- Only where no item of the field is left does a field delimiter come next. -/
theorem Fits.head_delimiter (fits : Fits anyCase text items rest args)
    (delimiter : (items ++ more).head?.all (· = .fieldDelimiter) = true) : rest = [] := by
  cases fits with
  | nil => rfl
  | cons takes fits => cases takes <;> simp at delimiter

theorem Fits.head_comma (fits : Fits anyCase text items rest args)
    (ended : more.head?.all (· = .fieldDelimiter) = true)
    (comma : (items ++ more).head? = some .subfieldDelimiter) : rest ≠ [] := by
  rintro rfl
  cases fits with
  | nil =>
    rw [List.nil_append] at comma
    simp [comma] at ended
  | cons takes fits => cases takes

/-- A settled expression starts with no token that is an item by itself. -/
theorem moveToken?_expression {token : Token} {run : List Token} {found : Expr × Nat}
    (settled : node.settles atStart (items ++ more) .expression = true)
    (child : node.child? .expression = some (node.after .expression))
    (longest : Expr.parseLongest (token :: run ++ rest) text = .ok found)
    (fits : Fits anyCase text items rest args)
    (ended : more.head?.all (· = .fieldDelimiter) = true) :
    byRows.moveToken? node anyCase atStart token (run ++ rest).head? = none := by
  obtain ⟨-, noRegister⟩ := Expr.head_of_parseLongest longest
  simp only [Node.settles, Bool.and_eq_true, Bool.or_eq_true, Bool.not_eq_true',
    decide_eq_true_eq] at settled
  obtain ⟨signs, words⟩ := settled
  unfold Graph.moveToken?
  split
  · rename_i register named
    exact absurd named (noRegister register)
  · rename_i operator sign
    have plain : (run ++ rest).head?.any Token.isRegister = false :=
      Expr.next_of_parseLongest sign longest
    rcases signs with start | unclaimed
    · simp only [byRows_child?, child, start, plain, Option.isSome_some, Bool.not_false, Bool.and_self,
        if_true]
    · have childless : node.child? (.operator operator) = none :=
        Node.child?_of_startsWith unclaimed rfl
      simp [childless]
  · rename_i word name
    rcases words with unclaimed | comma
    · have childless : node.child? (.mnemonic (if anyCase then Text.upper word else word)) = none :=
        Node.child?_of_startsWith unclaimed rfl
      simp [childless]
    · have follows := fits.head_comma ended comma
      simp [follows]
  · rfl

/-- A settled item is what the walk takes. -/
theorem move_settled (member : ⟨item :: (items ++ more), handler⟩ ∈ node)
    (ended : more.head?.all (· = .fieldDelimiter) = true)
    (settled : node.settles atStart (items ++ more) item = true)
    (takes : Takes anyCase text item tokens arg rest) (fits : Fits anyCase text items rest args) :
    ∃ token tail taken, tokens = token :: tail ∧ rest = tail.drop taken ∧
      (item = .expression ∨ taken = 0 ∧ decide (token.kind = .comma) = isDelimiter item) ∧
      byRows.move node text anyCase atStart token tail = .ok ⟨node.after item, arg, taken⟩ := by
  have child := Node.child?_of_mem member
  cases takes with
  | @comma token rest kind =>
    refine ⟨token, rest, 0, rfl, rfl, .inr ⟨rfl, by simp [kind, isDelimiter]⟩, ?_⟩
    simp [Graph.move, kind, child]
  | @general token rest register kind =>
    refine ⟨token, rest, 0, rfl, rfl, .inr ⟨rfl, by simp [kind, isDelimiter]⟩, ?_⟩
    have rival : node.child? (.register register.kind (some register.number)) = none :=
      Node.child?_of_startsWith (by simpa [Node.settles] using settled) (by simp [namesRegister])
    simp [Graph.move, Graph.moveToken?, kind, Graph.registerChild?, rival, child]
  | @named token rest register kind =>
    refine ⟨token, rest, 0, rfl, rfl, .inr ⟨rfl, by simp [kind, isDelimiter]⟩, ?_⟩
    have accepted : byRows.accepts (node.after (.register register.kind (some register.number)))
        rest.head? = true :=
      accepts_of_fits (Node.mem_after.mpr member) ended fits
    have chosen : byRows.registerChild? node register rest.head? =
        some (node.after (.register register.kind (some register.number))) := by
      unfold Graph.registerChild?
      rw [byRows_child?, child, byRows_child?]
      cases node.child? (.register register.kind none) with
      | none => rfl
      | some general => simp [accepted]
    simp [Graph.move, Graph.moveToken?, kind, chosen]
  | @operator token rest operator kind =>
    refine ⟨token, rest, 0, rfl, rfl, .inr ⟨rfl, by simp [kind, isDelimiter]⟩, ?_⟩
    have loses : ((node.child? .expression).isSome && atStart &&
        !rest.head?.any Token.isRegister) = false := by
      simp only [Node.settles, Bool.or_eq_true, Bool.not_eq_true', Bool.and_eq_false_iff] at settled
      rcases settled with (inside | unclaimed) | register
      · simp [inside]
      · have childless : node.child? .expression = none :=
          Node.child?_of_startsWith unclaimed (by simp)
        simp [childless]
      · simp [fits.head_register ended register]
    simp [Graph.move, Graph.moveToken?, kind, child, loses]
  | @mnemonic token rest word kind =>
    refine ⟨token, rest, 0, rfl, rfl, .inr ⟨rfl, by simp [kind, isDelimiter]⟩, ?_⟩
    obtain rfl : rest = [] := fits.head_delimiter settled
    simp [Graph.move, Graph.moveToken?, kind, child]
  | @expression token run rest whole expr complete longest =>
    refine ⟨token, run ++ rest, run.length, rfl, List.drop_left.symm, .inl rfl, ?_⟩
    obtain ⟨noComma, -⟩ := Expr.head_of_parseLongest longest
    have unclaimed := moveToken?_expression settled child longest fits ended
    rw [Graph.move, if_neg noComma, unclaimed, Graph.moveExpression, byRows_child?, child]
    rw [List.cons_append] at longest
    simp [longest]

/-- Tokens that belong to the expression before are passed over. -/
theorem walk_skip (text : List Char) (anyCase : Bool) (node : Node α) (given : List Arg)
    (atStart : Bool) (skip : Nat) (tokens : List Token) :
    ∃ starts, (skip = 0 → starts = atStart) ∧
      byRows.walk text anyCase node given atStart skip tokens =
        byRows.walk text anyCase node given starts 0 (tokens.drop skip) := by
  induction skip generalizing atStart tokens with
  | zero => exact ⟨atStart, fun _ => rfl, rfl⟩
  | succ skip ih =>
    cases tokens with
    | nil => exact ⟨atStart, by omega, rfl⟩
    | cons token tokens =>
      obtain ⟨starts, -, same⟩ := ih (token.kind = .comma) tokens
      exact ⟨starts, by omega, same⟩

theorem Node.clear_cons {starts : Bool} (clear : node.clear atStart (item :: items) = true)
    (next : starts = isDelimiter item ∨ item = .expression) :
    node.settles atStart items item = true ∧ (node.after item).clear starts items = true := by
  simp only [Node.clear, Bool.and_eq_true] at clear
  obtain ⟨⟨settled, within⟩, inside⟩ := clear
  refine ⟨settled, ?_⟩
  rcases next with rfl | rfl
  · exact within
  · cases starts with
    | false => exact within
    | true => simpa using inside

theorem Node.clear_afterAll (clear : node.clear atStart (items ++ more) = true) :
    ∃ starts, (node.afterAll items).clear starts more = true := by
  induction items generalizing node atStart with
  | nil => exact ⟨atStart, clear⟩
  | cons item items ih => exact ih (Node.clear_cons clear (.inl rfl)).2

/-- The walk follows a row that the tokens fit and that is clear. -/
theorem walk_clear (fits : Fits anyCase text items tokens args)
    (member : ⟨items ++ more, handler⟩ ∈ node)
    (ended : more.head?.all (· = .fieldDelimiter) = true)
    (clear : node.clear atStart (items ++ more) = true) (given : List Arg) :
    byRows.walk text anyCase node given atStart 0 tokens =
      .ok (node.afterAll items, given ++ args) := by
  induction fits generalizing node atStart given with
  | nil => rw [Graph.walk, List.append_nil]; rfl
  | @cons item items tokens rest arg args takes fits ih =>
    obtain ⟨settled, -⟩ := Node.clear_cons clear (.inl rfl)
    obtain ⟨token, tail, taken, rfl, rfl, place, moved⟩ :=
      move_settled member ended settled takes fits
    obtain ⟨starts, same, skipped⟩ := walk_skip text anyCase (node.after item)
      (given ++ arg.toList) (token.kind = .comma) taken tail
    have next : starts = isDelimiter item ∨ item = .expression := by
      rcases place with expression | ⟨none, delimiter⟩
      · exact .inr expression
      · exact .inl ((same none).trans delimiter)
    rw [Graph.walk, moved]
    dsimp only
    rw [skipped, ih (Node.mem_after.mpr member) (Node.clear_cons clear next).2,
      List.append_assoc]
    rfl

/-- Once the walk has followed the result field of a row, it finds the row if the rest is clear. -/
theorem find_of_walk {matcher : Matcher α} {result operand : FieldTokens}
    {before after : List PatternItem} {first second : List Arg}
    (walked : byRows.walk result.text anyCase matcher.rows [] true 0 result.tokens =
      .ok (Node.afterAll matcher.rows before, first))
    (member : ⟨before ++ .fieldDelimiter :: after, handler⟩ ∈ matcher.rows)
    (clear : (Node.after (Node.afterAll matcher.rows before) .fieldDelimiter).clear true after =
      true)
    (fits : Fits anyCase operand.text after operand.tokens second) :
    ∃ found ∈ matcher.rows, found.items = before ++ .fieldDelimiter :: after ∧
      matcher.find result operand anyCase = .ok ⟨found.handler, first ++ second⟩ := by
  have delimited : ⟨.fieldDelimiter :: after, handler⟩ ∈ Node.afterAll matcher.rows before :=
    Node.mem_afterAll.mpr member
  have kept : ⟨after ++ [], handler⟩ ∈
      Node.after (Node.afterAll matcher.rows before) .fieldDelimiter := by
    rw [List.append_nil]
    exact Node.mem_after.mpr delimited
  have child := Node.child?_of_mem delimited
  rw [← List.append_nil after] at clear
  have operandWalked := walk_clear fits kept rfl clear first
  obtain ⟨found, among, empty, handled⟩ := Node.handler?_of_mem (Node.mem_afterAll.mpr kept)
  refine ⟨⟨before ++ .fieldDelimiter :: after, found.handler⟩, ?_, rfl, ?_⟩
  · have origin := Node.mem_afterAll.mp (Node.mem_after.mp (Node.mem_afterAll.mp among))
    rwa [empty, List.append_nil] at origin
  · simp only [find, Graph.find, walked, bind, Except.bind, byRows_child?, child, operandWalked,
      byRows_handler?, handled]
    rfl

/-- An instance of a clear row is found as one of it. -/
theorem find_clear {matcher : Matcher α} {row : Row α} {result operand : FieldTokens}
    (member : row ∈ matcher.rows) (clear : Node.clear matcher.rows true row.items = true)
    (fits : Instance anyCase row.items result operand args) :
    ∃ found ∈ matcher.rows, found.items = row.items ∧
      matcher.find result operand anyCase = .ok ⟨found.handler, args⟩ := by
  obtain ⟨before, after, first, second, items, fitsResult, fitsOperand, rfl⟩ := fits
  obtain ⟨_, handler⟩ := row
  subst items
  have walked := walk_clear fitsResult member rfl clear []
  obtain ⟨starts, later⟩ := Node.clear_afterAll clear
  exact find_of_walk walked member (Node.clear_cons later (.inl rfl)).2 fitsOperand

end Follow

end Matcher
end CrayAssembler
