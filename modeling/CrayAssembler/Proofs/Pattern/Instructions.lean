import CrayAssembler.Proofs.Pattern.Arguments

namespace CrayAssembler

namespace Matcher

variable {α : Type}

/-- Items of the result field. -/
def Row.result (row : Row α) : List PatternItem :=
  row.items.takeWhile (· ≠ .fieldDelimiter)

/-- Items of the operand field. -/
def Row.operand (row : Row α) : List PatternItem :=
  row.items.drop (row.result.length + 1)

/-- The result field names a register. -/
def Row.names (row : Row α) : Bool :=
  row.result.any fun
    | .register _ number => number.isSome
    | _ => false

/-- The result field of a statement is that of a row that names a register, but the statement is not
an instance of any such row. -/
def Obscured (matcher : Matcher α) (result operand : FieldTokens) (anyCase : Bool) : Prop :=
  (∃ row ∈ matcher.rows, row.names = true ∧
    ∃ args, Fits anyCase result.text row.result result.tokens args) ∧
  ∀ row ∈ matcher.rows, row.names = true → ∀ args, ¬ Instance anyCase row.items result operand args

/-- A result field that is a register of a class, alone or after a comma, with all settled after
it. -/
def Node.open (node : Node α) : List PatternItem → Bool
  | .register kind none :: .fieldDelimiter :: after =>
    ((node.after (.register kind none)).after .fieldDelimiter).clear true after
  | .subfieldDelimiter :: .register kind none :: .fieldDelimiter :: after =>
    (((node.after .subfieldDelimiter).after (.register kind none)).after .fieldDelimiter).clear
      true after
  | _ => false

/-- The item by which a node without names of registers takes what the item takes. -/
def unnamed : PatternItem → PatternItem
  | .register kind _ => .register kind none
  | item => item

/-- No other item of the node takes the token at which the item stands. -/
def Node.lacks (node : Node α) : PatternItem → Bool
  | .expression => !node.startsWith isOperatorItem && !node.startsWith isMnemonicItem
  | .register kind _ => !node.startsWith (namesRegister kind)
  | _ => true

/-- Tokens that fit the items lead from the node to no row. -/
def Node.misses (node : Node α) : List PatternItem → Bool
  | [] => node.handler?.isNone
  | item :: rest =>
    !node.startsWith (· = .expression) && node.lacks item &&
      (!node.startsWith (· = unnamed item) || (node.after (unnamed item)).misses rest)

/-- Both lists are commas and registers, with registers of the same classes at the same places. -/
def alike : List PatternItem → List PatternItem → Bool
  | [], [] => true
  | .subfieldDelimiter :: items, .subfieldDelimiter :: others => alike items others
  | .register kind _ :: items, .register other _ :: others => kind = other && alike items others
  | _, _ => false

/-- A row that names a register is clear and has only commas and registers in its result field. For
any row that is alike, either there is a row with the name and its operand field, or its operand
field leads to nothing after the name. -/
def Node.decides (node : Node α) (row : Row α) : Bool :=
  if row.names then
    node.clear true row.items && alike row.result row.result &&
      node.all fun other => other.names || !alike other.result row.result ||
        ((node.afterAll row.result).after .fieldDelimiter).any (·.items = other.operand) ||
        ((node.afterAll row.result).after .fieldDelimiter).misses other.operand
  else node.clear true row.items || node.open row.items

section Fields

variable {anyCase : Bool} {text : List Char} {items others : List PatternItem}
  {tokens : List Token} {args given : List Arg} {node : Node α} {atStart : Bool}

theorem Fits.result_eq {row : Row α} {after : List PatternItem}
    (fits : Fits anyCase text items tokens args)
    (split : row.items = items ++ .fieldDelimiter :: after) :
    row.result = items ∧ row.operand = after := by
  have result : row.result = items := by
    rw [Row.result, split, List.takeWhile_append_of_pos]
    · simp
    · intro item member
      simpa using fits.ne_delimiter item member
  refine ⟨result, ?_⟩
  rw [Row.operand, result, split]
  simp

theorem Takes.of_comma {token : Token} {rest left : List Token} {item : PatternItem}
    {arg : Option Arg} (comma : token.kind = .comma)
    (takes : Takes anyCase text item (token :: rest) arg left) :
    item = .subfieldDelimiter ∧ left = rest := by
  cases takes with
  | comma => exact ⟨rfl, rfl⟩
  | general kind => rw [comma] at kind; cases kind
  | named kind => rw [comma] at kind; cases kind
  | operator kind => rw [comma] at kind; cases kind
  | mnemonic kind => rw [comma] at kind; cases kind
  | expression complete longest => exact absurd comma (Expr.head_of_parseLongest longest).1

theorem Takes.of_register {token : Token} {rest left : List Token} {item : PatternItem}
    {arg : Option Arg} {register : Register} (kind : token.kind = .register register)
    (takes : Takes anyCase text item (token :: rest) arg left) :
    ∃ number, item = .register register.kind number ∧ left = rest := by
  cases takes with
  | comma other => rw [kind] at other; cases other
  | general other => rw [kind] at other; cases other; exact ⟨_, rfl, rfl⟩
  | named other => rw [kind] at other; cases other; exact ⟨_, rfl, rfl⟩
  | operator other => rw [kind] at other; cases other
  | mnemonic other => rw [kind] at other; cases other
  | expression complete longest => exact absurd kind ((Expr.head_of_parseLongest longest).2 _)

/-- Items that take the same commas and registers are alike. -/
theorem Fits.alike (fits : Fits anyCase text items tokens args)
    (other : Fits anyCase text others tokens given)
    (plain : Matcher.alike others others = true) : Matcher.alike items others = true := by
  induction other generalizing items args with
  | nil =>
    cases fits with
    | nil => rfl
    | cons takes _ => cases takes
  | cons takes _ ih =>
    cases takes with
    | comma kind =>
      cases fits with
      | cons first fits =>
        obtain ⟨rfl, rfl⟩ := first.of_comma kind
        exact ih fits plain
    | general kind =>
      cases fits with
      | cons first fits =>
        obtain ⟨number, rfl, rfl⟩ := first.of_register kind
        simp only [Matcher.alike, decide_true, Bool.true_and] at plain ⊢
        exact ih fits plain
    | named kind =>
      cases fits with
      | cons first fits =>
        obtain ⟨number, rfl, rfl⟩ := first.of_register kind
        simp only [Matcher.alike, decide_true, Bool.true_and] at plain ⊢
        exact ih fits plain
    | operator kind => cases plain
    | mnemonic kind => cases plain
    | expression complete longest => cases plain

/-- Where no expression is possible, a token is taken by an item of its own or not at all. -/
theorem move_childless {token : Token} {rest : List Token}
    (childless : node.child? .expression = none) (noComma : token.kind ≠ .comma) :
    byRows.move node text anyCase atStart token rest =
      match byRows.moveToken? node anyCase atStart token rest.head? with
      | some (next, arg) => .ok ⟨next, arg, 0⟩
      | none => .error .noMatch := by
  have refused : byRows.moveExpression node text (token :: rest) = .error .noMatch := by
    rw [Graph.moveExpression, byRows_child?, childless]
  rw [Graph.move, if_neg noComma, refused]
  cases byRows.moveToken? node anyCase atStart token rest.head? <;> rfl

/-- One token of a field that a node misses. -/
theorem move_misses {item : PatternItem} {rest : List Token} {arg : Option Arg}
    (takes : Takes anyCase text item tokens arg rest)
    (misses : node.misses (item :: items) = true) :
    ∃ token tail, tokens = token :: tail ∧
      (byRows.move node text anyCase atStart token tail = .error .noMatch ∨
        tail = rest ∧ ∃ next, next.misses items = true ∧
          byRows.move node text anyCase atStart token tail = .ok ⟨next, arg, 0⟩) := by
  simp only [Node.misses, Bool.and_eq_true, Bool.not_eq_true'] at misses
  obtain ⟨⟨noExpression, lacks⟩, misses⟩ := misses
  have childless : node.child? .expression = none :=
    Node.child?_of_startsWith noExpression (by simp)
  have child : node.child? (unnamed item) = none ∨
      node.child? (unnamed item) = some (node.after (unnamed item)) ∧
        (node.after (unnamed item)).misses items = true := by
    rcases Bool.or_eq_true _ _ ▸ misses with absent | missed
    · exact .inl (Node.child?_of_startsWith (by simpa using absent) (by simp))
    · exact (node.child?_eq _).imp_right fun child => ⟨child, missed⟩
  cases takes with
  | @comma token _ kind =>
    refine ⟨token, rest, rfl, ?_⟩
    rcases child with absent | ⟨child, missed⟩
    · have absent : node.child? .subfieldDelimiter = none := absent
      exact .inl (by simp [Graph.move, kind, absent])
    · have child : node.child? .subfieldDelimiter = some (node.after .subfieldDelimiter) := child
      exact .inr ⟨rfl, _, missed, by simp [Graph.move, kind, child, unnamed]⟩
  | @general token _ register kind | @named token _ register kind =>
    refine ⟨token, rest, rfl, ?_⟩
    have rival : node.child? (.register register.kind (some register.number)) = none :=
      Node.child?_of_startsWith (by simpa [Node.lacks] using lacks) (by simp [namesRegister])
    rw [move_childless childless (by simp [kind])]
    rcases child with absent | ⟨child, missed⟩
    · have absent : node.child? (.register register.kind none) = none := absent
      exact .inl (by simp [Graph.moveToken?, kind, Graph.registerChild?, rival, absent])
    · refine .inr ⟨rfl, _, missed, ?_⟩
      have child : node.child? (.register register.kind none) = some _ := child
      simp [Graph.moveToken?, kind, Graph.registerChild?, rival, child]
  | @operator token _ operator kind =>
    refine ⟨token, rest, rfl, ?_⟩
    rw [move_childless childless (by simp [kind])]
    rcases child with absent | ⟨child, missed⟩
    · have absent : node.child? (.operator operator) = none := absent
      exact .inl (by simp [Graph.moveToken?, kind, childless, absent])
    · refine .inr ⟨rfl, _, missed, ?_⟩
      have child : node.child? (.operator operator) = some _ := child
      simp [Graph.moveToken?, kind, childless, child]
  | @mnemonic token _ word kind =>
    refine ⟨token, rest, rfl, ?_⟩
    rw [move_childless childless (by simp [kind])]
    by_cases last : rest = []
    · rcases child with absent | ⟨child, missed⟩
      · have absent : node.child? (.mnemonic (if anyCase then Text.upper word else word)) = none :=
          absent
        exact .inl (by simp [Graph.moveToken?, kind, last, absent])
      · refine .inr ⟨rfl, _, missed, ?_⟩
        have child : node.child? (.mnemonic (if anyCase then Text.upper word else word)) = some _ :=
          child
        simp [Graph.moveToken?, kind, last, child]
    · exact .inl (by simp [Graph.moveToken?, kind, last])
  | @expression token run _ whole expr complete longest =>
    refine ⟨token, run ++ rest, rfl, .inl ?_⟩
    obtain ⟨noComma, noRegister⟩ := Expr.head_of_parseLongest longest
    simp only [Node.lacks, Bool.and_eq_true, Bool.not_eq_true'] at lacks
    have untaken : byRows.moveToken? node anyCase atStart token (run ++ rest).head? = none := by
      unfold Graph.moveToken?
      split
      · rename_i register named
        exact absurd named (noRegister register)
      · rename_i operator sign
        have absent : node.child? (.operator operator) = none :=
          Node.child?_of_startsWith lacks.1 rfl
        simp [absent]
      · rename_i word name
        have absent : node.child? (.mnemonic (if anyCase then Text.upper word else word)) = none :=
          Node.child?_of_startsWith lacks.2 rfl
        simp [absent]
      · rfl
    rw [move_childless childless noComma, untaken]

/-- What a node misses leads nowhere. -/
theorem walk_misses (fits : Fits anyCase text items tokens args)
    (misses : node.misses items = true) (given : List Arg) (atStart : Bool) :
    byRows.walk text anyCase node given atStart 0 tokens = .error .noMatch ∨
      ∃ final taken, byRows.walk text anyCase node given atStart 0 tokens = .ok (final, taken) ∧
        final.handler? = none := by
  induction fits generalizing node given atStart with
  | nil => exact .inr ⟨node, given, rfl, by simpa [Node.misses] using misses⟩
  | cons takes fits ih =>
    obtain ⟨token, tail, rfl, refused | ⟨rfl, next, missed, moved⟩⟩ := move_misses takes misses
    · exact .inl (by rw [Graph.walk, refused])
    · rw [Graph.walk, moved]
      exact ih missed _ _

/-- A register of a class at the end of a field is taken for that unless a row names it there. -/
theorem walk_lastRegister {token : Token} {register : Register} {rest : List PatternItem}
    {handler : α} (kind : token.kind = .register register)
    (member : ⟨.register register.kind none :: rest, handler⟩ ∈ node)
    (free : ∀ row ∈ node.after (.register register.kind (some register.number)),
      row.items ≠ [] ∧ row.items.head? ≠ some .fieldDelimiter) :
    byRows.walk text anyCase node given atStart 0 [token] =
      .ok (node.after (.register register.kind none), given ++ [.register register.number]) := by
  have general := Node.child?_of_mem member
  have refuses :
      byRows.accepts (node.after (.register register.kind (some register.number))) none = false := by
    simp only [Graph.accepts, Option.map_none, Bool.or_eq_false_iff, byRows_handler?,
      byRows_startsWith]
    constructor
    · have absent : List.find? (fun row : Row α => row.items.isEmpty)
          (node.after (.register register.kind (some register.number))) = none := by
        refine List.find?_eq_none.mpr fun row among => ?_
        simpa using (free row among).1
      simp [Node.handler?, absent]
    · refine List.any_eq_false.mpr fun row among => ?_
      have other := (free row among).2
      cases head : row.items.head? with
      | none => simp
      | some item =>
        rw [head] at other
        simpa using other
  have chosen : byRows.registerChild? node register none =
      some (node.after (.register register.kind none)) := by
    unfold Graph.registerChild?
    rw [byRows_child?, byRows_child?, general]
    rcases node.child?_eq (.register register.kind (some register.number)) with absent | named
    · rw [absent]
      rfl
    · simp [named, refuses]
  rw [Graph.walk]
  simp only [Graph.move, Graph.moveToken?, kind, chosen, reduceCtorEq, if_false, List.head?_nil, Option.map_some]
  rfl

/-- The same for a result field that is only a register, or a comma and a register. -/
theorem walk_open {before rest : List PatternItem} {kind : RegisterClass} {handler : α}
    (alone : before = [] ∨ before = [.subfieldDelimiter])
    (member : ⟨(before ++ [.register kind none]) ++ rest, handler⟩ ∈ node)
    (fits : Fits anyCase text (before ++ [.register kind none]) tokens args)
    (free : ∀ number, Fits anyCase text (before ++ [.register kind (some number)]) tokens args →
      ∀ row : Row α, ⟨(before ++ [.register kind (some number)]) ++ row.items, row.handler⟩ ∈ node →
        row.items ≠ [] ∧ row.items.head? ≠ some .fieldDelimiter) :
    byRows.walk text anyCase node [] true 0 tokens =
      .ok (node.afterAll (before ++ [.register kind none]), args) := by
  rcases alone with rfl | rfl
  · cases fits with
    | cons takes fits =>
      cases fits
      cases takes with
      | general kind =>
        refine walk_lastRegister kind member fun row among => ?_
        exact free _ (.cons (.named kind) .nil) row (Node.mem_after.mp among)
  · cases fits with
    | cons takes fits =>
      cases takes with
      | comma comma =>
        cases fits with
        | cons takes fits =>
          cases fits
          cases takes with
          | general kind =>
            have child := Node.child?_of_mem member
            rw [Graph.walk]
            simp only [Graph.move, comma, if_true, byRows_child?, child]
            refine walk_lastRegister kind (Node.mem_after.mpr member) fun row among => ?_
            exact free _ (.cons (.comma comma) (.cons (.named kind) .nil)) row
              (Node.mem_after.mp (Node.mem_after.mp among))

end Fields

theorem Row.items_eq {row : Row α} (delimited : .fieldDelimiter ∈ row.items) :
    row.items = row.result ++ .fieldDelimiter :: row.operand := by
  obtain ⟨items, handler⟩ := row
  unfold Row.operand Row.result
  dsimp only at delimited ⊢
  induction items with
  | nil => cases delimited
  | cons item items ih =>
    by_cases delimiter : item = .fieldDelimiter
    · simp [delimiter]
    · have later : .fieldDelimiter ∈ items := by simpa [Ne.symm delimiter] using delimited
      have rest := ih later
      simp only [ne_eq, delimiter, not_false_eq_true, decide_true, List.takeWhile_cons_of_pos,
        List.length_cons, List.drop_succ_cons, List.cons_append]
      rw [List.cons_inj_right]
      exact rest

section Found

variable {matcher : Matcher α} {row : Row α} {result operand : FieldTokens} {anyCase : Bool}
  {args : List Arg}

theorem Node.open_cases {node : Node α} {items : List PatternItem}
    (opened : node.open items = true) :
    ∃ before kind after, (before = [] ∨ before = [.subfieldDelimiter]) ∧
      items = (before ++ [.register kind none]) ++ .fieldDelimiter :: after ∧
      ((node.afterAll (before ++ [.register kind none])).after .fieldDelimiter).clear true after =
        true := by
  unfold Node.open at opened
  split at opened
  · exact ⟨[], _, _, .inl rfl, rfl, opened⟩
  · exact ⟨[.subfieldDelimiter], _, _, .inr rfl, rfl, opened⟩
  · cases opened

/-- Where no row that names a register fits the result field, a row with the class of the register
is found. -/
theorem find_open (delimited : ∀ row ∈ matcher.rows, .fieldDelimiter ∈ row.items)
    (member : row ∈ matcher.rows) (opened : Node.open matcher.rows row.items = true)
    (unnamed : ∀ row ∈ matcher.rows, row.names = true → ∀ args,
      ¬ Fits anyCase result.text row.result result.tokens args)
    (fits : Instance anyCase row.items result operand args) :
    ∃ found ∈ matcher.rows, found.items = row.items ∧
      matcher.find result operand anyCase = .ok ⟨found.handler, args⟩ := by
  obtain ⟨before, kind, after, alone, shape, clear⟩ := Node.open_cases opened
  obtain ⟨own, ownOperand, first, second, items, fitsResult, fitsOperand, rfl⟩ := fits
  obtain ⟨result_eq, operand_eq⟩ := fitsResult.result_eq items
  obtain ⟨rfl, rfl⟩ : own = before ++ [.register kind none] ∧ ownOperand = after := by
    rw [← result_eq, ← operand_eq]
    rcases alone with rfl | rfl <;> simp [Row.result, Row.operand, shape]
  obtain ⟨_, handler⟩ := row
  subst shape
  have walked := walk_open alone member fitsResult fun number fitsNamed other among => ?_
  · exact find_of_walk walked member clear fitsOperand
  obtain ⟨otherItems, otherHandler⟩ := other
  constructor
  · rintro rfl
    rw [List.append_nil] at among
    exact fitsNamed.ne_delimiter _ (delimited _ among) rfl
  · intro delimiter
    obtain ⟨rest, rfl⟩ := List.head?_eq_some_iff.mp delimiter
    let twin : Row α :=
      ⟨(before ++ [.register kind (some number)]) ++ .fieldDelimiter :: rest, otherHandler⟩
    have twinResult : twin.result = before ++ [.register kind (some number)] :=
      (fitsNamed.result_eq rfl).1
    have names : twin.names = true := by
      rw [Row.names, twinResult]
      simp
    exact unnamed twin among names first (twinResult ▸ fitsNamed)

/-- Where a row that names a register fits the result field, the walk goes on from that row only. -/
theorem find_named {named : Row α} {first : List Arg}
    (delimited : ∀ row ∈ matcher.rows, .fieldDelimiter ∈ row.items)
    (member : named ∈ matcher.rows) (names : named.names = true)
    (decided : Node.decides matcher.rows named = true)
    (fitsResult : Fits anyCase result.text named.result result.tokens first)
    (among : row ∈ matcher.rows) (fits : Instance anyCase row.items result operand args)
    (none : ∀ row ∈ matcher.rows, row.names = true → ∀ args,
      ¬ Instance anyCase row.items result operand args) :
    matcher.find result operand anyCase = .error .noMatch := by
  simp only [Node.decides, names, if_true, Bool.and_eq_true] at decided
  obtain ⟨⟨clear, plain⟩, others⟩ := decided
  obtain ⟨before, after, own, second, items, fitsOwn, fitsOperand, rfl⟩ := fits
  obtain ⟨result_eq, operand_eq⟩ := fitsOwn.result_eq items
  have general : row.names = false := by
    cases names : row.names with
    | false => rfl
    | true =>
      exact absurd ⟨before, after, own, second, items, fitsOwn, fitsOperand, rfl⟩
        (none row among names (own ++ second))
  have namedItems := Row.items_eq (delimited named member)
  rw [namedItems] at clear
  have listed : ⟨named.result ++ .fieldDelimiter :: named.operand, named.handler⟩ ∈
      matcher.rows := by
    rw [← namedItems]
    exact member
  have walked := walk_clear fitsResult listed rfl clear []
  have outcome := List.all_eq_true.mp others row among
  simp only [general, result_eq, operand_eq, fitsOwn.alike fitsResult plain, Bool.not_true,
    Bool.or_false, Bool.false_or, Bool.or_eq_true, List.any_eq_true, decide_eq_true_eq] at outcome
  rcases outcome with ⟨twin, known, twinItems⟩ | misses
  · -- The row that names the register and has the same operand field would be an instance.
    have listed : ⟨named.result ++ .fieldDelimiter :: after, twin.handler⟩ ∈ matcher.rows := by
      rw [← twinItems]
      exact Node.mem_afterAll.mp (Node.mem_after.mp known)
    let other : Row α := ⟨named.result ++ .fieldDelimiter :: after, twin.handler⟩
    have otherResult : other.result = named.result := (fitsResult.result_eq rfl).1
    have otherNames : other.names = true := by
      rw [Row.names, otherResult]
      exact names
    exact absurd ⟨named.result, after, first, second, rfl, fitsResult, fitsOperand, rfl⟩
      (none other listed otherNames (first ++ second))
  · have child := Node.child?_of_mem (Node.mem_afterAll.mpr listed :
      ⟨.fieldDelimiter :: named.operand, named.handler⟩ ∈
        Node.afterAll matcher.rows named.result)
    rcases walk_misses fitsOperand misses first true with refused | ⟨final, taken, ended, unhandled⟩
    · simp only [find, Graph.find, byRows_child?, walked, bind, Except.bind, List.nil_append, child,
        refused]
    · simp only [find, Graph.find, byRows_child?, byRows_handler?, walked, bind, Except.bind,
        List.nil_append, child, ended, unhandled]
      rfl

/-- In a table that decides all its rows, an instance of some row is found as an instance of one,
unless it is obscured; then nothing is found. -/
theorem find_decided
    (delimited : ∀ row ∈ matcher.rows, .fieldDelimiter ∈ row.items)
    (decided : ∀ row ∈ matcher.rows, Node.decides matcher.rows row = true)
    (member : row ∈ matcher.rows) (fits : Instance anyCase row.items result operand args) :
    (¬ Obscured matcher result operand anyCase → ∃ found ∈ matcher.rows, ∃ args,
      Instance anyCase found.items result operand args ∧
        matcher.find result operand anyCase = .ok ⟨found.handler, args⟩) ∧
    (Obscured matcher result operand anyCase →
      matcher.find result operand anyCase = .error .noMatch) := by
  constructor
  · intro seen
    by_cases named : ∃ other ∈ matcher.rows, other.names = true ∧
        ∃ args, Instance anyCase other.items result operand args
    · obtain ⟨other, among, names, args, fits⟩ := named
      have decides := decided other among
      simp only [Node.decides, names, if_true, Bool.and_eq_true] at decides
      obtain ⟨found, known, items, ended⟩ := find_clear among decides.1.1 fits
      exact ⟨found, known, args, items ▸ fits, ended⟩
    · have unnamed : ∀ other ∈ matcher.rows, other.names = true → ∀ args,
          ¬ Fits anyCase result.text other.result result.tokens args := by
        intro other among names args fits
        refine seen ⟨⟨other, among, names, args, fits⟩, ?_⟩
        intro other among names args fits
        exact named ⟨other, among, names, args, fits⟩
      have general : row.names = false := by
        cases names : row.names with
        | false => rfl
        | true => exact absurd ⟨row, member, names, args, fits⟩ named
      have decides := decided row member
      simp only [Node.decides, general, Bool.false_eq_true, if_false, Bool.or_eq_true] at decides
      rcases decides with clear | opened
      · obtain ⟨found, known, items, ended⟩ := find_clear member clear fits
        exact ⟨found, known, args, items ▸ fits, ended⟩
      · obtain ⟨found, known, items, ended⟩ := find_open delimited member opened unnamed fits
        exact ⟨found, known, args, items ▸ fits, ended⟩
  · rintro ⟨⟨other, among, names, first, fitsResult⟩, none⟩
    exact find_named delimited among names (decided other among) fitsResult member fits none

end Found

end Matcher

namespace InstructionSet

open Matcher

/-- Items of the instruction that loads a value. -/
def loadItems : List PatternItem :=
  [.register .s none, .fieldDelimiter, .expression]

/-- Items of the instruction that shifts a register. -/
def shiftItems : List PatternItem :=
  [.register .s none, .fieldDelimiter, .register .s none, .operator .less, .expression]

section Samples

variable (operand : Expr) (gh : Nat) (right : Bool)

/-- The load of S1 with the value of an expression. -/
def loadFound : Found Rule :=
  ⟨only (.loadS 0 1), [.register 1, .expression operand]⟩

/-- The shift of S1 by as many places as an expression says. -/
def shiftFound : Found Rule :=
  ⟨(shift gh right).sameRegister 0 1, [.register 1, .register 1, .expression operand]⟩

def mergeFound : Found Rule :=
  ⟨(fields 0o050 (.register 0) (.register 1) (.register 3)).sameRegister 0 2,
    [.register 1, .register 2, .register 1, .register 3]⟩

end Samples

/-- Operand fields of statements that change S1, and what the statements are found as. -/
def intoS1Found : List (String × Found Rule) :=
  let sum : Expr := .binary .add (.number "2") (.number "3")
  [("5", loadFound (.number "5")), ("2+3", loadFound sum),
    (">0", loadFound (.unary .maskRight (.number "0"))),
    (">64", loadFound (.unary .maskRight (.number "64"))),
    ("S1<5", shiftFound (.number "5") 0o054 false), ("S1<2+3", shiftFound sum 0o054 false),
    ("S1>0", shiftFound (.number "0") 0o055 true), ("S1>64", shiftFound (.number "64") 0o055 true),
    ("S2!S1&S3", mergeFound)]

/-- What is read off the table, all at once because building it takes long. -/
theorem table_checked :
    (∀ row ∈ table.rows, .fieldDelimiter ∈ row.items ∧ Node.decides table.rows row = true ∧
      row.handler.checked row.items = true) ∧
    (∃ row ∈ table.rows, row.items = loadItems) ∧ (∃ row ∈ table.rows, row.items = shiftItems) ∧
    (table.find (.ofText "S0" false) (.ofText "5" false) false).isOk = false ∧
    (table.find (.ofText "S0" false) (.ofText "S1<5" false) false).isOk = true ∧
    ∀ sample ∈ intoS1Found, (table.find (.ofText "S1" false) (.ofText sample.1 false) false).toOption =
      some sample.2 := by
  decide +kernel

/-- The rule of every row goes together with the items of the row's pattern. -/
theorem agrees_of_mem {row : Row Rule} (member : row ∈ table.rows) : row.handler.Agrees row.items :=
  Rule.agrees_of_checked (table_checked.1 row member).2.2

/-- A statement that is an instance of some machine instruction is found as an instance of one, unless
it is obscured: its result field is a register that some instructions name, and it is an instance of
none of those. Then nothing is found. -/
theorem find_of_instance {row : Row Rule} {result operand : FieldTokens} {anyCase : Bool}
    {args : List Arg} (member : row ∈ table.rows)
    (fits : Instance anyCase row.items result operand args) :
    (¬ Obscured table result operand anyCase → ∃ found ∈ table.rows, ∃ args,
      Instance anyCase found.items result operand args ∧
        table.find result operand anyCase = .ok ⟨found.handler, args⟩) ∧
    (Obscured table result operand anyCase →
      table.find result operand anyCase = .error .noMatch) :=
  find_decided (fun row among => (table_checked.1 row among).1)
    (fun row among => (table_checked.1 row among).2.1) member fits

theorem tokens_destination :
    (FieldTokens.ofText "S0" false).tokens = [⟨.register ⟨.s, 0⟩, ⟨0, 2⟩⟩] := by
  decide +kernel

/-- A shift of `S1` into `S0` has the shape of two instructions, of which the one that names `S0` is
found. -/
theorem find_of_instance_shift : ∃ found ∈ table.rows, ∃ args,
    Instance false found.items (.ofText "S0" false) (.ofText "S1<5" false) args ∧
      table.find (.ofText "S0" false) (.ofText "S1<5" false) false =
        .ok ⟨found.handler, args⟩ := by
  obtain ⟨-, -, ⟨row, member, items⟩, -, found, -⟩ := table_checked
  have operand : (FieldTokens.ofText "S1<5" false).tokens =
      [⟨.register ⟨.s, 1⟩, ⟨0, 2⟩⟩, ⟨.operator .less, ⟨2, 3⟩⟩, ⟨.number "5", ⟨3, 4⟩⟩] := by
    decide +kernel
  have fits : Instance false row.items (.ofText "S0" false) (.ofText "S1<5" false)
      [.register 0, .register 1, .expression (.number "5")] := by
    refine ⟨[.register .s none], [.register .s none, .operator .less, .expression], [.register 0],
      [.register 1, .expression (.number "5")], items, ?_, ?_, rfl⟩
    · rw [tokens_destination]
      exact .cons (@Takes.general _ _ _ _ ⟨.s, 0⟩ rfl) .nil
    · rw [operand]
      exact .cons (@Takes.general _ _ _ _ ⟨.s, 1⟩ rfl) (.cons (.operator rfl)
        (.cons (takes_leaf rfl) .nil))
  have outcome := find_of_instance member fits
  refine outcome.1 fun obscured => ?_
  rw [outcome.2 obscured] at found
  cases found

/-- A constant cannot be loaded into `S0`, although the pattern of the instruction takes any S
register. -/
theorem load_obscured :
    (∃ row ∈ table.rows, ∃ args,
      Instance false row.items (.ofText "S0" false) (.ofText "5" false) args) ∧
    ∀ found, table.find (.ofText "S0" false) (.ofText "5" false) false ≠ .ok found := by
  obtain ⟨-, ⟨row, member, items⟩, -, missed, -⟩ := table_checked
  constructor
  · have operand : (FieldTokens.ofText "5" false).tokens = [⟨.number "5", ⟨0, 1⟩⟩] := by
      decide +kernel
    refine ⟨row, member, [.register 0, .expression (.number "5")], [.register .s none],
      [.expression], [.register 0], [.expression (.number "5")], items, ?_, ?_, rfl⟩
    · rw [tokens_destination]
      exact .cons (@Takes.general _ _ _ _ ⟨.s, 0⟩ rfl) .nil
    · rw [operand]
      exact .cons (takes_leaf rfl) .nil
  · intro found outcome
    rw [outcome] at missed
    cases missed

end InstructionSet

end CrayAssembler
