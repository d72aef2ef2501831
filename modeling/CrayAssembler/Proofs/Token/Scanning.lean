import CrayAssembler.Proofs.Token.Places

namespace CrayAssembler

namespace Lexeme

/-- A character that separates lexemes and belongs to none. -/
def Separates (c : Char) : Prop :=
  c = ' ' ∨ c = '\t'

instance (c : Char) : Decidable (Separates c) :=
  inferInstanceAs (Decidable (_ ∨ _))

/-- The characters of the lexeme that starts with `c`. -/
def spelling (c : Char) (rest : List Char) : List Char :=
  c :: rest.take (read c rest).2

/-- What is left after the lexeme that starts with `c`. -/
def remainder (c : Char) (rest : List Char) : List Char :=
  rest.drop (read c rest).2

variable {c : Char} {rest : List Char}

theorem spelling_append_remainder (c : Char) (rest : List Char) :
    spelling c rest ++ remainder c rest = c :: rest :=
  congrArg (c :: ·) (List.take_append_drop _ rest)

theorem scanFrom_skip (start skip : Nat) (chars : List Char) :
    scanFrom start skip chars =
      scanFrom (start + Text.byteSize (chars.take skip)) 0 (chars.drop skip) := by
  induction chars generalizing start skip with
  | nil =>
    rw [List.drop_nil]
    rfl
  | cons c rest ih =>
    cases skip with
    | zero => rfl
    | succ more =>
      have size : Text.byteSize ((c :: rest).take (more + 1)) =
          c.utf8Size + Text.byteSize (rest.take more) := rfl
      rw [size, ← Nat.add_assoc]
      exact ih (start + c.utf8Size) more

theorem scanFrom_separator (separates : Separates c) (start : Nat) (rest : List Char) :
    scanFrom start 0 (c :: rest) = scanFrom (start + c.utf8Size) 0 rest := by
  rw [scanFrom, if_pos]
  rcases separates with rfl | rfl <;> rfl

theorem scanFrom_lexeme (solid : ¬Separates c) (start : Nat) (rest : List Char) :
    scanFrom start 0 (c :: rest) =
      ⟨(read c rest).1, spelling c rest, start, start + Text.byteSize (spelling c rest)⟩ ::
        scanFrom (start + Text.byteSize (spelling c rest)) 0 (remainder c rest) := by
  have other : ¬(decide (c = ' ') || decide (c = '\t')) = true := by
    rw [Bool.or_eq_true, decide_eq_true_eq, decide_eq_true_eq]
    exact solid
  rw [scanFrom, if_neg other]
  unfold spelling remainder
  cases read c rest with
  | mk kind taken =>
    refine congrArg (List.cons _) ((scanFrom_skip ..).trans ?_)
    rw [Nat.add_assoc]
    rfl

/-- What holds of no characters, and of some if it holds of what is left after a separator or after a
lexeme, holds of all texts. -/
theorem scan_induction {motive : List Char → Prop} (nil : motive [])
    (separator : ∀ c rest, Separates c → motive rest → motive (c :: rest))
    (lexeme : ∀ c rest, ¬Separates c → motive (remainder c rest) → motive (c :: rest))
    (chars : List Char) : motive chars := by
  generalize count : chars.length = n
  induction n using Nat.strongRecOn generalizing chars with
  | ind n ih =>
    cases chars with
    | nil => exact nil
    | cons c rest =>
      subst count
      by_cases separates : Separates c
      · exact separator c rest separates (ih _ (Nat.lt_succ_self _) rest rfl)
      · refine lexeme c rest separates (ih _ (Nat.lt_succ_of_le ?_) _ rfl)
        unfold remainder
        rw [List.length_drop]
        exact Nat.sub_le _ _

end Lexeme

end CrayAssembler
