import CrayAssembler.Proofs.Token.Steps

namespace CrayAssembler

theorem Text.digitValue?_lt {radix n : Nat} {c : Char} (found : digitValue? radix c = some n) :
    n < radix :=
  of_decide_eq_true (Option.filter_eq_some_iff.mp found).2

/-- How many numbers the designators of a class can have. -/
def RegisterClass.count (kind : RegisterClass) : Nat :=
  if kind.hasWideNumber then 64 else 8

namespace Register

/-- The number is one of those of its class. -/
def Valid (register : Register) : Prop :=
  register.number < register.kind.count

theorem valid_of_lt {register : Register} (one : register.number < 8) : register.Valid := by
  unfold Valid RegisterClass.count
  split
  · exact Nat.lt_trans one (by decide)
  · exact one

theorem valid_of_read? {chars : List Char} {anyCase : Bool} {register : Register}
    (found : read? chars anyCase = some register) : register.Valid := by
  unfold read? at found
  dsimp only at found
  obtain ⟨kind, -, found⟩ := Option.bind_eq_some_iff.mp found
  split at found
  case h_1 =>
    cases found
    exact valid_of_lt (Nat.zero_lt_succ 7)
  case h_2 =>
    obtain ⟨n, digit, ⟨⟩⟩ := Option.bind_eq_some_iff.mp found
    exact valid_of_lt (Text.digitValue?_lt digit)
  case h_3 =>
    split at found
    case isTrue wide =>
      obtain ⟨n, first, found⟩ := Option.bind_eq_some_iff.mp found
      obtain ⟨m, second, ⟨⟩⟩ := Option.bind_eq_some_iff.mp found
      have one := Text.digitValue?_lt first
      have other := Text.digitValue?_lt second
      unfold Valid RegisterClass.count
      rw [if_pos wide]
      dsimp only
      omega
    case isFalse => nomatch found
  case h_4 => nomatch found

end Register

namespace Token

/-- A register, if the token is one, has a number of its class. -/
def Valid (token : Token) : Prop :=
  ∀ register, token.kind = .register register → register.Valid

/-- Most tokens are no registers. -/
theorem valid_other {token : Token} (other : ∀ register, token.kind ≠ .register register) :
    token.Valid :=
  fun register same => absurd same (other register)

variable {anyCase : Bool} {lexeme : Lexeme} {rest : List Lexeme} {step : Step}

/-- All registers of a step have numbers of their classes. -/
theorem Reads.valid (reads : Reads anyCase lexeme rest step) : ∀ token ∈ step.tokens, token.Valid := by
  have read {designator : List Char} {register : Register} {span : Span}
      (found : Register.read? designator anyCase = some register) :
      Valid ⟨.register register, span⟩ := by
    rintro _ ⟨⟩
    exact Register.valid_of_read? found
  cases reads with
  | alone rest alone =>
    refine List.forall_mem_singleton.mpr ?_
    generalize lexeme.kind = kind at alone
    cases alone with
    | register found => exact read found
    | _ => exact valid_other nofun
  | wide => exact List.forall_mem_singleton.mpr (valid_other nofun)
  | joined rest leads chain follows compound =>
    refine List.forall_mem_singleton.mpr (valid_other ?_)
    rintro register rfl
    exact compound
  | divided rest leads touches kind text other found =>
    exact List.forall_mem_cons.mpr ⟨valid_other nofun, List.forall_mem_singleton.mpr (read found)⟩

theorem valid_ofLexemesFrom (lexemes : List Lexeme) (expecting : Bool) (skip : Nat) :
    ∀ token ∈ ofLexemesFrom anyCase expecting skip lexemes, token.Valid := by
  induction lexemes generalizing expecting skip with
  | nil => exact nofun
  | cons lexeme rest ih =>
    cases skip with
    | succ more => exact ih expecting more
    | zero => exact List.forall_mem_append.mpr ⟨(reads_step ..).valid, ih _ _⟩

end Token

theorem valid_tokenize (text : List Char) (anyCase : Bool) :
    ∀ token ∈ tokenize text anyCase, token.Valid :=
  Token.valid_ofLexemesFrom _ _ _

end CrayAssembler
