import CrayAssembler.Token.Lexer
import Mathlib.Data.List.Basic

namespace CrayAssembler

/-- The lexeme can be the first of several that form a token. -/
def Lexeme.Kind.Leads : Lexeme.Kind → Prop
  | .identifier | .number => True
  | .operator sign => sign ≠ .equals
  | _ => False

/-- The lexeme can be a later one of several that form a token. -/
def Lexeme.Kind.Follows : Lexeme.Kind → Prop
  | .identifier | .dot | .operator _ => True
  | _ => False

namespace Token

/-- What several lexemes can form, apart from an operator. -/
def Kind.Compound : Kind → Prop
  | .name _ | .error _ | .location _ => True
  | _ => False

/-- What a lexeme with a text can be by itself. -/
inductive Alone (anyCase : Bool) (text : List Char) : Lexeme.Kind → Kind → Prop
  | register {register : Register} (read : Register.read? text anyCase = some register) :
      Alone anyCase text .identifier (.register register)
  | name (name : Name) : Alone anyCase text .identifier (.name name)
  | number (digits : String) : Alone anyCase text .number (.number digits)
  | based (radix : Nat) (digits : List Char) (value : Word) :
      Alone anyCase text (.based radix digits) (.based value)
  | notBased (radix : Nat) (digits : List Char) (message : String) :
      Alone anyCase text (.based radix digits) (.error message)
  | string (constant : CharConstant) : Alone anyCase text (.string constant) (.string constant)
  | operator (operator : Operator) : Alone anyCase text (.operator operator) (.operator operator)
  | location (counter : Counter) : Alone anyCase text (.operator .star) (.location counter)
  | leftParen : Alone anyCase text .leftParen .leftParen
  | rightParen : Alone anyCase text .rightParen .rightParen
  | comma : Alone anyCase text .comma .comma
  | dot (message : String) : Alone anyCase text .dot (.error message)
  | unknown (message : String) : Alone anyCase text .unknown (.error message)

/-- What a step can do with a lexeme and those after it. -/
inductive Reads (anyCase : Bool) (lexeme : Lexeme) : List Lexeme → Step → Prop
  | alone {kind : Kind} (rest : List Lexeme) (alone : Alone anyCase lexeme.text lexeme.kind kind) :
      Reads anyCase lexeme rest ⟨[⟨kind, lexeme.span⟩], 0⟩
  | wide {next : Lexeme} {operator : Operator} (rest : List Lexeme) (leads : lexeme.kind.Leads)
      (touches : lexeme.touches next) (sign : next.kind = .dot ∨ ∃ sign, next.kind = .operator sign)
      (other : operator ≠ .equals) : Reads anyCase lexeme (next :: rest) (wideStep lexeme operator)
  | joined {kind : Kind} {more : List Lexeme} {last : Lexeme} (rest : List Lexeme)
      (leads : lexeme.kind.Leads)
      (chain : (lexeme :: (more ++ [last])).IsChain fun first second => first.touches second)
      (follows : ∀ next ∈ more ++ [last], next.kind.Follows) (compound : kind.Compound) :
      Reads anyCase lexeme (more ++ last :: rest)
        ⟨[⟨kind, ⟨lexeme.span.start, last.span.stop⟩⟩], more.length + 1⟩
  | divided {identifier : Lexeme} {first : Char} {designator : List Char} {operator : Operator}
      {register : Register} (rest : List Lexeme) (leads : lexeme.kind.Leads)
      (touches : lexeme.touches identifier) (kind : identifier.kind = .identifier)
      (text : identifier.text = first :: designator) (other : operator ≠ .equals)
      (read : Register.read? designator anyCase = some register) :
      Reads anyCase lexeme (identifier :: rest)
        ⟨[⟨.operator operator, ⟨lexeme.span.start, identifier.span.start + 1⟩⟩,
          ⟨.register register, ⟨identifier.span.start + 1, identifier.span.stop⟩⟩], 1⟩

variable {anyCase expecting : Bool} {lexeme next : Lexeme} {rest : List Lexeme} {step default : Step}

section Taken

theorem Reads.taken_le (reads : Reads anyCase lexeme rest step) :
    step.taken ≤ rest.length := by
  cases reads with
  | alone => exact Nat.zero_le _
  | wide => exact Nat.succ_le_succ (Nat.zero_le _)
  | joined => simp
  | divided => exact Nat.succ_le_succ (Nat.zero_le _)

/-- What a step takes after its first lexeme. -/
theorem Reads.follows (reads : Reads anyCase lexeme rest step) :
    ∀ next ∈ rest.take step.taken, next.kind.Follows := by
  cases reads with
  | alone => exact List.forall_mem_nil _
  | wide rest leads touches sign other =>
    refine List.forall_mem_singleton.mpr ?_
    rcases sign with kind | ⟨sign, kind⟩
    all_goals
      rw [kind]
      trivial
  | @joined kind more last rest leads chain follows compound =>
    have taken : (more ++ last :: rest).take (more.length + 1) = more ++ [last] := by
      rw [← List.singleton_append, ← List.append_assoc]
      exact List.take_left' (by rw [List.length_append]; rfl)
    dsimp only
    rw [taken]
    exact follows
  | divided rest leads touches kind text other read =>
    refine List.forall_mem_singleton.mpr ?_
    rw [kind]
    trivial

end Taken

section Touching

theorem touchingIdentifier?_eq_some (found : touchingIdentifier? lexeme rest = some next) :
    ∃ more, rest = next :: more ∧ next.kind = .identifier ∧ lexeme.touches next := by
  obtain ⟨first, touches⟩ := Option.filter_eq_some_iff.mp found
  obtain ⟨more, rfl⟩ := List.head?_eq_some_iff.mp first
  obtain ⟨kind, touches⟩ := Bool.and_eq_true_iff.mp touches
  exact ⟨more, rfl, of_decide_eq_true kind, touches⟩

theorem touchingKind_eq_true {kind : Lexeme.Kind} (found : touchingKind lexeme rest kind = true) :
    ∃ next more, rest = next :: more ∧ next.kind = kind ∧ lexeme.touches next := by
  cases rest with
  | nil => nomatch found
  | cons next more =>
    obtain ⟨kind, touches⟩ := Bool.and_eq_true_iff.mp found
    exact ⟨next, more, rfl, of_decide_eq_true kind, touches⟩

end Touching

section Reading

theorem reads_wide {kind : Lexeme.Kind} {operator : Operator} (leads : lexeme.kind.Leads)
    (found : touchingKind lexeme rest kind = true) (sign : kind = .dot ∨ ∃ sign, kind = .operator sign)
    (other : operator ≠ .equals) : Reads anyCase lexeme rest (wideStep lexeme operator) := by
  obtain ⟨next, more, rfl, rfl, touches⟩ := touchingKind_eq_true found
  exact .wide more leads touches sign other

theorem reads_getD {step? : Option Step}
    (found : ∀ step, step? = some step → Reads anyCase lexeme rest step)
    (otherwise : Reads anyCase lexeme rest default) :
    Reads anyCase lexeme rest (step?.getD default) := by
  cases step? with
  | none => exact otherwise
  | some step => exact found step rfl

theorem variants_ne_equals (operator : Operator) :
    ∀ variant ∈ operator.variants, variant.2 ≠ .equals := by
  cases operator <;> decide

theorem reads_variantStep? {operator : Operator} (sign : lexeme.kind = .operator operator)
    (found : variantStep? anyCase lexeme operator rest = some step) :
    Reads anyCase lexeme rest step := by
  unfold variantStep? at found
  obtain ⟨identifier, touching, found⟩ := Option.bind_eq_some_iff.mp found
  split at found
  · nomatch found
  case h_2 first designator text =>
    obtain ⟨⟨letter, variant⟩, known, found⟩ := Option.bind_eq_some_iff.mp found
    obtain ⟨register, read, ⟨⟩⟩ := Option.bind_eq_some_iff.mp found
    obtain ⟨more, rfl, kind, touches⟩ := touchingIdentifier?_eq_some touching
    have member := List.mem_of_find?_eq_some known
    refine .divided more ?_ touches kind text (variants_ne_equals operator _ member) read
    rw [sign]
    rintro rfl
    nomatch member

theorem reads_qualifiedStep? (sign : lexeme.kind = .operator .slash)
    (found : qualifiedStep? lexeme rest = some step) : Reads anyCase lexeme rest step := by
  have leads : lexeme.kind.Leads := by
    rw [sign]
    exact nofun
  unfold qualifiedStep? at found
  split at found
  case h_1 => nomatch found
  case h_2 second afterSecond =>
    split at found
    case isTrue double =>
      obtain ⟨last, touching, rfl⟩ := Option.map_eq_some_iff.mp found
      obtain ⟨more, rfl, name, touchesLast⟩ := touchingIdentifier?_eq_some touching
      obtain ⟨_, _, same, slash, touches⟩ := touchingKind_eq_true double
      obtain ⟨rfl, rfl⟩ := List.cons.inj same
      refine @Reads.joined _ _ _ [second] last more leads ?_ ?_ trivial
      · exact .cons_cons touches (.cons_cons touchesLast (.singleton _))
      · simp [slash, name, Lexeme.Kind.Follows]
    case isFalse single =>
      split at found
      case h_1 qualifier third afterThird touching =>
        obtain ⟨_, same, kind, touches⟩ := touchingIdentifier?_eq_some touching
        obtain ⟨rfl, rfl⟩ := List.cons.inj same
        split at found
        case isTrue again =>
          obtain ⟨last, touching, rfl⟩ := Option.map_eq_some_iff.mp found
          obtain ⟨more, rfl, name, touchesLast⟩ := touchingIdentifier?_eq_some touching
          obtain ⟨_, _, same, slash, touchesSlash⟩ := touchingKind_eq_true again
          obtain ⟨rfl, rfl⟩ := List.cons.inj same
          refine @Reads.joined _ _ _ [second, third] last more leads ?_ ?_ trivial
          · exact .cons_cons touches (.cons_cons touchesSlash (.cons_cons touchesLast (.singleton _)))
          · simp [kind, slash, name, Lexeme.Kind.Follows]
        case isFalse => nomatch found
      case h_2 => nomatch found

/-- An identifier that touches the lexeme and belongs to its token. -/
theorem reads_identifier {kind : Kind} (leads : lexeme.kind.Leads)
    (touching : touchingIdentifier? lexeme rest = some next) (compound : kind.Compound) :
    Reads anyCase lexeme rest ⟨[⟨kind, ⟨lexeme.span.start, next.span.stop⟩⟩], 1⟩ := by
  obtain ⟨more, rfl, name, touches⟩ := touchingIdentifier?_eq_some touching
  refine @Reads.joined _ _ _ [] next more leads (.cons_cons touches (.singleton _)) ?_ compound
  simp [name, Lexeme.Kind.Follows]

theorem reads_counterStep (sign : lexeme.kind = .operator .star) :
    Reads anyCase lexeme rest (counterStep lexeme rest) := by
  refine reads_getD ?_ (.alone rest (sign ▸ .location _))
  intro step found
  obtain ⟨identifier, touching, found⟩ := Option.bind_eq_some_iff.mp found
  obtain ⟨counter, -, ⟨⟩⟩ := Option.bind_eq_some_iff.mp found
  refine reads_identifier ?_ touching trivial
  rw [sign]
  exact nofun

theorem reads_operatorStep {operator : Operator} (sign : lexeme.kind = .operator operator) :
    Reads anyCase lexeme rest (operatorStep anyCase expecting lexeme operator rest) := by
  have plain : Reads anyCase lexeme rest ⟨[⟨.operator operator, lexeme.span⟩], 0⟩ :=
    .alone rest (sign ▸ .operator operator)
  have variant : ∀ step, variantStep? anyCase lexeme operator rest = some step →
      Reads anyCase lexeme rest step := fun _ => reads_variantStep? sign
  unfold operatorStep
  dsimp only
  split
  case h_1 =>
    have leads : lexeme.kind.Leads := by
      rw [sign]
      exact nofun
    split
    case isTrue less => exact reads_wide leads less (.inr ⟨_, rfl⟩) nofun
    case isFalse =>
      split
      case isTrue greater => exact reads_wide leads greater (.inr ⟨_, rfl⟩) nofun
      case isFalse => exact plain
  case h_2 =>
    refine reads_getD variant ?_
    split
    · exact reads_counterStep sign
    · exact plain
  case h_3 =>
    refine reads_getD ?_ (reads_getD variant plain)
    split
    · exact fun _ => reads_qualifiedStep? sign
    · exact nofun
  case h_4 => exact reads_getD variant plain

theorem reads_identifierStep (kind : lexeme.kind = .identifier) :
    Reads anyCase lexeme rest (identifierStep anyCase lexeme rest) := by
  have leads : lexeme.kind.Leads := by
    rw [kind]
    trivial
  unfold identifierStep
  generalize (if anyCase = true then lexeme.text.map Char.toUpper else lexeme.text) = letters
  dsimp only
  split
  case isTrue parcel =>
    exact reads_wide leads (Bool.and_eq_true_iff.mp parcel).2 (.inl rfl) nofun
  case isFalse =>
    split
    case isTrue word => exact reads_wide leads (Bool.and_eq_true_iff.mp word).2 (.inl rfl) nofun
    case isFalse =>
      split
      case h_1 register read => exact .alone rest (kind ▸ .register read)
      case h_2 => exact .alone rest (kind ▸ .name _)

theorem reads_numberStep (kind : lexeme.kind = .number) :
    Reads anyCase lexeme rest (numberStep lexeme rest) := by
  unfold numberStep
  split
  case h_1 identifier touching =>
    refine reads_identifier ?_ touching trivial
    rw [kind]
    trivial
  case h_2 => exact .alone rest (kind ▸ .number _)

/-- A step has one of the few shapes. -/
theorem reads_step (anyCase expecting : Bool) (lexeme : Lexeme) (rest : List Lexeme) :
    Reads anyCase lexeme rest (Token.step anyCase expecting lexeme rest) := by
  unfold Token.step
  dsimp only
  cases kind : lexeme.kind with
  | identifier => exact reads_identifierStep kind
  | number => exact reads_numberStep kind
  | based radix digits =>
    dsimp only
    split
    · exact .alone rest (kind ▸ .based radix digits _)
    · exact .alone rest (kind ▸ .notBased radix digits _)
  | string constant => exact .alone rest (kind ▸ .string constant)
  | operator operator => exact reads_operatorStep kind
  | leftParen => exact .alone rest (kind ▸ .leftParen)
  | rightParen => exact .alone rest (kind ▸ .rightParen)
  | comma => exact .alone rest (kind ▸ .comma)
  | dot => exact .alone rest (kind ▸ .dot _)
  | unknown => exact .alone rest (kind ▸ .unknown _)

end Reading

end Token

end CrayAssembler
