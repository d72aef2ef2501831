import CrayAssembler.Proofs.Token.Scanning

namespace CrayAssembler

namespace Lexeme

/-- The lexeme `places` bytes further on. -/
def shift (places : Nat) (lexeme : Lexeme) : Lexeme :=
  { lexeme with span := ⟨places + lexeme.span.start, places + lexeme.span.stop⟩ }

theorem touches_shift (places : Nat) (first second : Lexeme) :
    (first.shift places).touches (second.shift places) = first.touches second :=
  decide_eq_decide.mpr Nat.add_left_cancel_iff

theorem scanFrom_shift (places start : Nat) (chars : List Char) :
    scanFrom (places + start) 0 chars = (scanFrom start 0 chars).map (shift places) := by
  induction chars using scan_induction generalizing start with
  | nil => rfl
  | separator c rest separates ih =>
    rw [scanFrom_separator separates, scanFrom_separator separates, Nat.add_assoc]
    exact ih _
  | lexeme c rest solid ih =>
    rw [scanFrom_lexeme solid, scanFrom_lexeme solid, Nat.add_assoc, ih]
    rfl

end Lexeme

namespace Token

/-- What a step gives, places aside. -/
def Step.outcome (step : Step) : List Kind × Nat :=
  (step.tokens.map (·.kind), step.taken)

/-- Lexemes that begin with a comma, or none. -/
def Ended (lexemes : List Lexeme) : Prop :=
  ∀ lexeme ∈ lexemes.head?, lexeme.kind = .comma

variable {anyCase expecting : Bool} {places : Nat} {lexeme : Lexeme} {rest tail : List Lexeme}

section Steps

variable (ended : Ended tail)

include ended

theorem touchingIdentifier?_shift :
    touchingIdentifier? (lexeme.shift places) (rest.map (Lexeme.shift places) ++ tail) =
      (touchingIdentifier? lexeme rest).map (Lexeme.shift places) := by
  cases rest with
  | nil =>
    cases tail with
    | nil => rfl
    | cons comma tail =>
      have kind := ended comma rfl
      simp [touchingIdentifier?, Option.filter, kind]
  | cons next rest =>
    have touches := Lexeme.touches_shift places lexeme next
    unfold touchingIdentifier?
    rw [List.map_cons, List.cons_append, List.head?_cons, List.head?_cons, Option.filter_some,
      Option.filter_some, touches]
    exact (apply_ite (Option.map (Lexeme.shift places))
      ((decide (next.kind = .identifier) && lexeme.touches next) = true) (some next) none).symm

theorem touchingKind_shift {kind : Lexeme.Kind} (other : kind ≠ .comma) :
    touchingKind (lexeme.shift places) (rest.map (Lexeme.shift places) ++ tail) kind =
      touchingKind lexeme rest kind := by
  cases rest with
  | nil =>
    cases tail with
    | nil => rfl
    | cons comma tail =>
      have kind := ended comma rfl
      simp [touchingKind, kind, other.symm]
  | cons next rest =>
    have touches := Lexeme.touches_shift places lexeme next
    unfold touchingKind
    rw [List.map_cons, List.cons_append, List.head?_cons, List.head?_cons, Option.any_some,
      Option.any_some, touches]
    rfl

theorem variantStep?_shift (operator : Operator) :
    (variantStep? anyCase (lexeme.shift places) operator
        (rest.map (Lexeme.shift places) ++ tail)).map Step.outcome =
      (variantStep? anyCase lexeme operator rest).map Step.outcome := by
  unfold variantStep?
  rw [touchingIdentifier?_shift ended]
  cases touchingIdentifier? lexeme rest with
  | none => rfl
  | some identifier =>
    obtain ⟨kind, text, span⟩ := identifier
    cases text with
    | nil => rfl
    | cons first designator =>
      dsimp only [Option.map_some, Option.bind_eq_bind, Option.bind_some, Lexeme.shift]
      rw [Option.map_bind, Option.map_bind]
      refine congrArg (Option.bind _) (funext fun variant => ?_)
      dsimp only [Function.comp_apply]
      cases Register.read? designator anyCase <;> rfl

theorem counterStep_shift :
    (counterStep (lexeme.shift places) (rest.map (Lexeme.shift places) ++ tail)).outcome =
      (counterStep lexeme rest).outcome := by
  unfold counterStep
  rw [touchingIdentifier?_shift ended]
  cases touchingIdentifier? lexeme rest with
  | none => rfl
  | some identifier =>
    dsimp only [Option.map_some, Option.bind_eq_bind, Option.bind_some, Lexeme.shift]
    cases Counter.ofSuffix? identifier.text <;> rfl

theorem qualifiedStep?_shift :
    (qualifiedStep? (lexeme.shift places) (rest.map (Lexeme.shift places) ++ tail)).map Step.outcome =
      (qualifiedStep? lexeme rest).map Step.outcome := by
  have slash (lexeme : Lexeme) (rest : List Lexeme) :
      touchingKind (lexeme.shift places) (rest.map (Lexeme.shift places) ++ tail) (.operator .slash) =
        touchingKind lexeme rest (.operator .slash) := touchingKind_shift ended nofun
  have double := slash lexeme rest
  have touching := @touchingIdentifier?_shift places lexeme rest tail ended
  cases rest with
  | nil =>
    cases tail with
    | nil => rfl
    | cons comma tail =>
      change touchingKind _ (comma :: tail) _ = false at double
      change touchingIdentifier? _ (comma :: tail) = none at touching
      change Option.map _ (qualifiedStep? _ (comma :: tail)) = none
      unfold qualifiedStep?
      dsimp only
      rw [double, touching]
      rfl
  | cons second rest =>
    have name := @touchingIdentifier?_shift places second rest tail ended
    unfold qualifiedStep?
    rw [List.map_cons, List.cons_append] at double touching ⊢
    dsimp only
    rw [double, touching]
    split
    case isTrue =>
      rw [name]
      cases touchingIdentifier? second rest <;> rfl
    case isFalse =>
      cases touchingIdentifier? lexeme (second :: rest) with
      | none => rfl
      | some qualifier =>
        have again := slash qualifier rest
        cases rest with
        | nil =>
          cases tail with
          | nil => rfl
          | cons comma tail =>
            change touchingKind _ (comma :: tail) _ = false at again
            change Option.map Step.outcome (if touchingKind (qualifier.shift places) (comma :: tail)
              (.operator .slash) = true then _ else none) = none
            rw [again]
            rfl
        | cons third rest =>
          have last := @touchingIdentifier?_shift places third rest tail ended
          rw [List.map_cons, List.cons_append] at again ⊢
          dsimp only [Option.map_some]
          rw [again]
          split
          · rw [last]
            cases touchingIdentifier? third rest <;> rfl
          · rfl

theorem operatorStep_shift (operator : Operator) :
    (operatorStep anyCase expecting (lexeme.shift places) operator
        (rest.map (Lexeme.shift places) ++ tail)).outcome =
      (operatorStep anyCase expecting lexeme operator rest).outcome := by
  have variant := @variantStep?_shift anyCase places lexeme rest tail ended operator
  have getD {first second : Option Step} {plain other : Step}
      (some : first.map Step.outcome = second.map Step.outcome) (none : plain.outcome = other.outcome) :
      (first.getD plain).outcome = (second.getD other).outcome := by
    rw [← Option.getD_map Step.outcome, ← Option.getD_map Step.outcome, some, none]
  unfold operatorStep
  dsimp only
  split
  case h_1 =>
    have sign (operator : Operator) :
        touchingKind (lexeme.shift places) (rest.map (Lexeme.shift places) ++ tail)
          (.operator operator) = touchingKind lexeme rest (.operator operator) :=
      touchingKind_shift ended nofun
    rw [sign, sign]
    split
    · rfl
    · split <;> rfl
  case h_2 =>
    refine getD variant ?_
    split
    · exact counterStep_shift ended
    · rfl
  case h_3 =>
    refine getD ?_ (getD variant rfl)
    split
    · exact qualifiedStep?_shift ended
    · rfl
  case h_4 => exact getD variant rfl

theorem identifierStep_shift :
    (identifierStep anyCase (lexeme.shift places) (rest.map (Lexeme.shift places) ++ tail)).outcome =
      (identifierStep anyCase lexeme rest).outcome := by
  have dot : touchingKind (lexeme.shift places) (rest.map (Lexeme.shift places) ++ tail) .dot =
      touchingKind lexeme rest .dot := touchingKind_shift ended nofun
  unfold identifierStep
  rw [dot]
  dsimp only [Lexeme.shift]
  generalize (if anyCase = true then lexeme.text.map Char.toUpper else lexeme.text) = letters
  split
  · rfl
  · split
    · rfl
    · split <;> rfl

theorem numberStep_shift :
    (numberStep (lexeme.shift places) (rest.map (Lexeme.shift places) ++ tail)).outcome =
      (numberStep lexeme rest).outcome := by
  unfold numberStep
  rw [touchingIdentifier?_shift ended]
  cases touchingIdentifier? lexeme rest <;> rfl

theorem step_shift :
    (step anyCase expecting (lexeme.shift places) (rest.map (Lexeme.shift places) ++ tail)).outcome =
      (step anyCase expecting lexeme rest).outcome := by
  unfold step
  dsimp only
  have same : (lexeme.shift places).kind = lexeme.kind := rfl
  rw [same]
  cases lexeme.kind with
  | identifier => exact identifierStep_shift ended
  | number => exact numberStep_shift ended
  | based radix digits =>
    dsimp only
    cases Numeral.ofDigits radix digits <;> rfl
  | operator operator => exact operatorStep_shift ended operator
  | _ => rfl

end Steps

/-- The tokens of shifted lexemes, and of what ends them. -/
theorem kinds_ofLexemesFrom (ended : Ended tail) (places : Nat) (lexemes : List Lexeme)
    (expecting : Bool) {skip : Nat} (short : skip ≤ lexemes.length) :
    ∃ later, (ofLexemesFrom anyCase expecting skip
        (lexemes.map (Lexeme.shift places) ++ tail)).map (·.kind) =
      (ofLexemesFrom anyCase expecting skip lexemes).map (·.kind) ++
        (ofLexemesFrom anyCase later 0 tail).map (·.kind) := by
  induction lexemes generalizing expecting skip with
  | nil =>
    obtain rfl := Nat.le_zero.mp short
    exact ⟨expecting, rfl⟩
  | cons lexeme rest ih =>
    cases skip with
    | succ more => exact ih expecting (Nat.le_of_succ_le_succ short)
    | zero =>
      obtain ⟨kinds, taken⟩ := Prod.mk.inj (@step_shift anyCase expecting places lexeme rest tail ended)
      have within := (reads_step anyCase expecting lexeme rest).taken_le
      rw [List.map_cons, List.cons_append, ofLexemesFrom, ofLexemesFrom]
      generalize step anyCase expecting (lexeme.shift places)
        (rest.map (Lexeme.shift places) ++ tail) = shifted at kinds taken ⊢
      generalize step anyCase expecting lexeme rest = plain at kinds taken within ⊢
      have last : shifted.tokens.getLast?.map (·.kind.opensOperand) =
          plain.tokens.getLast?.map (·.kind.opensOperand) := by
        have same := congrArg (fun kinds => kinds.getLast?.map Kind.opensOperand) kinds
        simpa only [List.getLast?_map, Option.map_map, Function.comp_def] using same
      obtain ⟨later, found⟩ := ih ((plain.tokens.getLast?.map (·.kind.opensOperand)).getD expecting)
        within
      refine ⟨later, ?_⟩
      rw [List.map_append, List.map_append, List.append_assoc, ← found, last, kinds, taken]

theorem ofLexemesFrom_comma {comma : Lexeme} (kind : comma.kind = .comma) (rest : List Lexeme) :
    ofLexemesFrom anyCase expecting 0 (comma :: rest) =
      ⟨.comma, comma.span⟩ :: ofLexemesFrom anyCase true 0 rest := by
  rw [ofLexemesFrom, step, kind]
  rfl

end Token

end CrayAssembler
