import CrayAssembler.Token.Lexeme

namespace CrayAssembler

namespace Lexeme

/-- A character constant begins here, closed or not. -/
def Opens (c : Char) (rest : List Char) : Prop :=
  c = '\'' ∨ c.toUpper = 'A' ∧ rest.head? = some '\''

/-- The kinds of single characters. -/
inductive Sign : Char → Kind → Prop
  | leftParen : Sign '(' .leftParen
  | rightParen : Sign ')' .rightParen
  | comma : Sign ',' .comma
  | dot : Sign '.' .dot
  | operator {c : Char} {sign : Operator} (known : Operator.ofSign? c = some sign) :
      Sign c (.operator sign)
  | unknown {c : Char} (none : Operator.ofSign? c = none) : Sign c .unknown

/-- What is read of a character and those after it. -/
inductive Spelled (c : Char) (rest : List Char) : Kind × Nat → Prop
  | string (quote : c = '\'') : Spelled c rest (readString none rest)
  | ascii {body : List Char} (letter : c.toUpper = 'A') (same : rest = '\'' :: body) :
      Spelled c rest ((readString (some .rightZero) body).1,
        1 + (readString (some .rightZero) body).2)
  | based {radix : Nat} {body : List Char} (closed : ¬Opens c rest) (known : radix? c = some radix)
      (same : rest = '\'' :: body) :
      Spelled c rest (.based radix (body.takeWhile isHexDigit),
        1 + (body.takeWhile isHexDigit).length +
          if (body.drop (body.takeWhile isHexDigit).length).head? = some '\'' then 1 else 0)
  | identifier (closed : ¬Opens c rest) (start : Identifier.startChar c) :
      Spelled c rest (.identifier, (rest.takeWhile Identifier.bodyChar).length)
  | number (closed : ¬Opens c rest) (digit : c.isDigit) :
      Spelled c rest (.number, (rest.takeWhile Char.isDigit).length +
        numberTailLength (rest.drop (rest.takeWhile Char.isDigit).length))
  | sign (closed : ¬Opens c rest) : Spelled c rest (signKind c, 0)

variable {c : Char} {rest : List Char} {kind : Kind} {taken : Nat}

theorem sign_signKind (c : Char) : Sign c (signKind c) := by
  unfold signKind
  split
  · exact .leftParen
  · exact .rightParen
  · exact .comma
  · exact .dot
  · split
    case h_1 known => exact .operator known
    case h_2 none => exact .unknown none

theorem spelled_read (c : Char) (rest : List Char) : Spelled c rest (read c rest) := by
  unfold read
  split
  case isTrue quote => exact .string quote
  case isFalse quote =>
    split
    case isTrue opens =>
      obtain ⟨letter, next⟩ := Bool.and_eq_true_iff.mp opens
      obtain ⟨body, rfl⟩ := List.head?_eq_some_iff.mp (of_decide_eq_true next)
      exact .ascii (of_decide_eq_true letter) rfl
    case isFalse letter =>
      rw [Bool.and_eq_true, decide_eq_true_eq, decide_eq_true_eq] at letter
      have closed : ¬Opens c rest := not_or.mpr ⟨quote, letter⟩
      split
      case h_1 radix body known => exact .based closed known rfl
      case h_2 =>
        split
        case isTrue start => exact .identifier closed start
        case isFalse =>
          split
          case isTrue digit => exact .number closed digit
          case isFalse => exact .sign closed

section Kinds

theorem kind_readString (justified : Option Justification) (chars : List Char) :
    (readString justified chars).1 = .unknown ∨
      ∃ constant, (readString justified chars).1 = .string constant := by
  unfold readString
  split
  · exact .inl rfl
  · exact .inr ⟨_, rfl⟩

theorem kind_of_opens (opens : Opens c rest) :
    (read c rest).1 = .unknown ∨ ∃ constant, (read c rest).1 = .string constant := by
  have spelled := spelled_read c rest
  generalize read c rest = result at spelled ⊢
  cases spelled with
  | string => exact kind_readString _ _
  | ascii => exact kind_readString _ _
  | based closed | identifier closed | number closed | sign closed => exact absurd opens closed

theorem kind_of_not_opens (closed : ¬Opens c rest) (constant : CharConstant) :
    (read c rest).1 ≠ .string constant := by
  have spelled := spelled_read c rest
  generalize read c rest = result at spelled ⊢
  cases spelled with
  | string quote => exact absurd (.inl quote) closed
  | ascii letter same => exact absurd (.inr ⟨letter, same ▸ rfl⟩) closed
  | based | identifier | number => nofun
  | sign =>
    have sign := sign_signKind c
    intro same
    dsimp only at same
    rw [same] at sign
    nomatch sign

theorem taken_of_operator {operator : Operator} (found : read c rest = (.operator operator, taken)) :
    taken = 0 := by
  have spelled := spelled_read c rest
  by_cases opens : Opens c rest
  · have kind := kind_of_opens opens
    rw [found] at kind
    obtain kind | ⟨_, kind⟩ := kind <;> nomatch kind
  · generalize read c rest = result at spelled found
    cases spelled with
    | string quote => exact absurd (.inl quote) opens
    | ascii letter same => exact absurd (.inr ⟨letter, same ▸ rfl⟩) opens
    | based | identifier | number => nomatch found
    | sign => exact (Prod.mk.inj found).2.symm

end Kinds

section Branches

theorem read_quote (rest : List Char) : read '\'' rest = readString none rest :=
  if_pos rfl

theorem take_quote (n : Nat) (body : List Char) :
    ('\'' :: body).take (1 + n) = '\'' :: body.take n := by
  rw [Nat.add_comm]
  rfl

theorem read_letter (letter : c.toUpper = 'A') (quote : c ≠ '\'') (body : List Char) :
    read c ('\'' :: body) =
      ((readString (some .rightZero) body).1, 1 + (readString (some .rightZero) body).2) := by
  unfold read
  rw [if_neg quote, letter]
  rfl

theorem read_based {radix : Nat} (quote : c ≠ '\'') (known : radix? c = some radix)
    (body : List Char) :
    read c ('\'' :: body) = (.based radix (body.takeWhile isHexDigit),
      1 + (body.takeWhile isHexDigit).length +
        if (body.drop (body.takeWhile isHexDigit).length).head? = some '\'' then 1 else 0) := by
  have letter : c.toUpper ≠ 'A' := by
    intro letter
    unfold radix? at known
    rw [letter] at known
    nomatch known
  unfold read
  rw [if_neg quote, decide_eq_false letter, known]
  rfl

/-- What is read where no apostrophe begins or follows. -/
theorem read_other (quote : c ≠ '\'')
    (closed : rest.head? = some '\'' → c.toUpper ≠ 'A' ∧ radix? c = none) :
    read c rest =
      if Identifier.startChar c then (.identifier, (rest.takeWhile Identifier.bodyChar).length)
      else if c.isDigit then
        (.number, (rest.takeWhile Char.isDigit).length +
          numberTailLength (rest.drop (rest.takeWhile Char.isDigit).length))
      else (signKind c, 0) := by
  unfold read
  rw [if_neg quote, if_neg ?_]
  · split
    case h_1 radix body known =>
      have none := (closed rfl).2
      rw [known] at none
      nomatch none
    case h_2 => rfl
  · rw [Bool.and_eq_true, decide_eq_true_eq, decide_eq_true_eq]
    rintro ⟨letter, next⟩
    exact (closed next).1 letter

end Branches

end Lexeme

end CrayAssembler
