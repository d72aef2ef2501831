import CrayAssembler.Proofs.Token.Scanning

namespace CrayAssembler

theorem Text.byteSize_pos {chars : List Char} (some : chars ≠ []) : 0 < byteSize chars := by
  cases chars with
  | nil => exact absurd rfl some
  | cons c rest =>
    have size : byteSize (c :: rest) = c.utf8Size + byteSize rest := rfl
    have positive := c.utf8Size_pos
    omega

theorem Text.eq_nil_of_byteSize {chars : List Char} (empty : byteSize chars = 0) : chars = [] := by
  refine Decidable.byContradiction fun some => ?_
  have positive := byteSize_pos some
  omega

/-- A character of a joined text stands in the first part or in the second. -/
theorem Text.place_append {first second before after : List Char} {c : Char}
    (same : first ++ second = before ++ c :: after) :
    c ∈ first ∧ (∃ more, first = before ++ c :: more) ∨
      ∃ more, before = first ++ more ∧ second = more ++ c :: after := by
  rcases List.append_eq_append_iff.mp same with ⟨more, rfl, found⟩ | ⟨more, rfl, found⟩
  · exact .inr ⟨more, rfl, found⟩
  · cases more with
    | nil => exact .inr ⟨[], by simp, found.symm⟩
    | cons d more =>
      obtain ⟨rfl, -⟩ := List.cons.inj found
      exact .inl ⟨by simp, more, rfl⟩

theorem Identifier.utf8Size_of_startChar {c : Char} (start : startChar c) : c.utf8Size = 1 := by
  have ascii (low : c.toNat ≤ 127) : c.utf8Size = 1 := Char.utf8Size_eq_one_iff.mpr low
  rcases Bool.or_eq_true_iff.mp start with alpha | mark
  · rcases Bool.or_eq_true_iff.mp alpha with upper | lower
    · have bounds : 65 ≤ c.toNat ∧ c.toNat ≤ 90 := of_decide_eq_true upper
      exact ascii (by omega)
    · obtain ⟨-, high⟩ := Bool.and_eq_true_iff.mp lower
      have high : c.toNat ≤ 122 := of_decide_eq_true high
      exact ascii (by omega)
  · simp only [isMark, Bool.or_eq_true, decide_eq_true_eq] at mark
    rcases mark with (rfl | rfl) | rfl <;> rfl

theorem Register.read?_nil (anyCase : Bool) : read? [] anyCase = none := by
  cases anyCase <;> decide

theorem Operator.utf8Size_of_ofSign? {c : Char} {operator : Operator}
    (known : ofSign? c = some operator) : c.utf8Size = 1 := by
  unfold ofSign? at known
  split at known
  case h_12 => nomatch known
  all_goals rfl

namespace Lexeme

/-- The place of a lexeme fits its text, and signs and the first letters of identifiers are single
bytes. -/
structure Sized (lexeme : Lexeme) : Prop where
  stop_eq : lexeme.span.stop = lexeme.span.start + Text.byteSize lexeme.text
  some : lexeme.text ≠ []
  sign : (lexeme.kind = .dot ∨ ∃ sign, lexeme.kind = .operator sign) →
    Text.byteSize lexeme.text = 1
  letter : lexeme.kind = .identifier → ∀ c rest, lexeme.text = c :: rest → c.utf8Size = 1

/-- Lexemes lie one after another in the characters from a byte offset on, with nothing but separators
between them. -/
def Tiles : Nat → List Char → List Lexeme → Prop
  | _, chars, [] => ∀ c ∈ chars, Separates c
  | start, chars, lexeme :: lexemes => ∃ gap rest, chars = gap ++ (lexeme.text ++ rest) ∧
    (∀ c ∈ gap, Separates c) ∧ lexeme.Sized ∧ lexeme.span.start = start + Text.byteSize gap ∧
    Tiles lexeme.span.stop rest lexemes

variable {c : Char} {start : Nat} {chars rest : List Char} {lexeme : Lexeme}
  {lexemes more : List Lexeme}

theorem Tiles.separator (tiles : Tiles (start + c.utf8Size) rest lexemes) (separates : Separates c) :
    Tiles start (c :: rest) lexemes := by
  cases lexemes with
  | nil => exact List.forall_mem_cons.mpr ⟨separates, tiles⟩
  | cons lexeme lexemes =>
    obtain ⟨gap, after, rfl, blank, sized, place, tiles⟩ := tiles
    refine ⟨c :: gap, after, rfl, List.forall_mem_cons.mpr ⟨separates, blank⟩, sized, ?_, tiles⟩
    rw [place, Nat.add_assoc]
    rfl

theorem sized_read (c : Char) (rest : List Char) (start : Nat) :
    Sized ⟨(read c rest).1, spelling c rest, start, start + Text.byteSize (spelling c rest)⟩ := by
  have spelled := spelled_read c rest
  unfold spelling
  generalize read c rest = result at spelled ⊢
  refine ⟨rfl, List.cons_ne_nil _ _, fun sign => ?_, fun kind d more same => ?_⟩
  · -- What is a sign is a single character, and one of those that are known.
    have one (size : c.utf8Size = 1) : Text.byteSize (c :: rest.take 0) = 1 := size
    have other (justified : Option Justification) (chars : List Char)
        (sign : (readString justified chars).1 = .dot ∨
          ∃ sign, (readString justified chars).1 = .operator sign) : False := by
      rcases kind_readString justified chars with unknown | ⟨constant, string⟩
      · rw [unknown] at sign
        rcases sign with dot | ⟨_, operator⟩
        · nomatch dot
        · nomatch operator
      · rw [string] at sign
        rcases sign with dot | ⟨_, operator⟩
        · nomatch dot
        · nomatch operator
    cases spelled with
    | string => exact (other _ _ sign).elim
    | ascii => exact (other _ _ sign).elim
    | sign =>
      have known := sign_signKind c
      dsimp only at sign ⊢
      generalize signKind c = kind at known sign
      cases known with
      | dot => exact one rfl
      | operator known => exact one (Operator.utf8Size_of_ofSign? known)
      | _ => rcases sign with same | ⟨_, same⟩ <;> nomatch same
    | _ => rcases sign with same | ⟨_, same⟩ <;> nomatch same
  · obtain ⟨rfl, -⟩ := List.cons.inj same
    have other (justified : Option Justification) (chars : List Char)
        (name : (readString justified chars).1 = .identifier) : False := by
      rcases kind_readString justified chars with unknown | ⟨constant, string⟩
      · nomatch unknown.symm.trans name
      · nomatch string.symm.trans name
    cases spelled with
    | string => exact (other _ _ kind).elim
    | ascii => exact (other _ _ kind).elim
    | identifier closed first => exact Identifier.utf8Size_of_startChar first
    | sign =>
      have known := sign_signKind c
      dsimp only at kind
      rw [kind] at known
      nomatch known
    | _ => nomatch kind

theorem tiles_scanFrom (start : Nat) (chars : List Char) :
    Tiles start chars (scanFrom start 0 chars) := by
  induction chars using scan_induction generalizing start with
  | nil => exact nofun
  | separator c rest separates ih =>
    rw [scanFrom_separator separates]
    exact (ih _).separator separates
  | lexeme c rest solid ih =>
    rw [scanFrom_lexeme solid]
    exact ⟨[], remainder c rest, (spelling_append_remainder c rest).symm, nofun,
      sized_read c rest start, rfl, ih _⟩

theorem Tiles.sized (tiles : Tiles start chars lexemes) : ∀ lexeme ∈ lexemes, lexeme.Sized := by
  induction lexemes generalizing start chars with
  | nil => exact nofun
  | cons lexeme lexemes ih =>
    obtain ⟨gap, rest, -, -, sized, -, tiles⟩ := tiles
    exact List.forall_mem_cons.mpr ⟨sized, ih tiles⟩

/-- Lexemes that touch leave nothing out between them. -/
theorem Tiles.touching (tiles : Tiles start chars (lexeme :: (more ++ lexemes)))
    (chain : (lexeme :: more).IsChain fun first second => first.touches second) :
    ∃ gap inside rest, chars = gap ++ (inside ++ rest) ∧ (∀ c ∈ gap, Separates c) ∧ inside ≠ [] ∧
      lexeme.span.start = start + Text.byteSize gap ∧
      ((lexeme :: more).getLast (List.cons_ne_nil _ _)).span.stop =
        lexeme.span.start + Text.byteSize inside ∧
      Tiles (lexeme.span.start + Text.byteSize inside) rest lexemes := by
  induction more generalizing lexeme start chars with
  | nil =>
    obtain ⟨gap, rest, rfl, blank, sized, place, tiles⟩ := tiles
    refine ⟨gap, lexeme.text, rest, rfl, blank, sized.some, place, sized.stop_eq, ?_⟩
    rw [← sized.stop_eq]
    exact tiles
  | cons next more ih =>
    obtain ⟨gap, rest, rfl, blank, sized, place, tiles⟩ := tiles
    obtain ⟨touches, chain⟩ := List.isChain_cons_cons.mp chain
    obtain ⟨between, inside, back, rfl, -, some, next_start, last_stop, later⟩ := ih tiles chain
    have touches : lexeme.span.stop = next.span.start := of_decide_eq_true touches
    obtain rfl : between = [] := Text.eq_nil_of_byteSize (by omega)
    have size := Text.byteSize_append lexeme.text inside
    have stop : next.span.start + Text.byteSize inside =
        lexeme.span.start + Text.byteSize (lexeme.text ++ inside) := by
      rw [← touches, sized.stop_eq, size, Nat.add_assoc]
    refine ⟨gap, lexeme.text ++ inside, back, by simp, blank, by simp [sized.some], place, ?_, ?_⟩
    · rw [← stop]
      exact last_stop
    · rw [← stop]
      exact later

end Lexeme

namespace Token

/-- Tokens lie one after another in the characters from a byte offset on, with nothing but separators
between them. -/
def Tiles : Nat → List Char → List Token → Prop
  | _, chars, [] => ∀ c ∈ chars, Lexeme.Separates c
  | start, chars, token :: tokens => ∃ gap inside rest, chars = gap ++ (inside ++ rest) ∧
    (∀ c ∈ gap, Lexeme.Separates c) ∧ inside ≠ [] ∧ token.span.start = start + Text.byteSize gap ∧
    token.span.stop = token.span.start + Text.byteSize inside ∧ Tiles token.span.stop rest tokens

variable {anyCase : Bool} {start : Nat} {chars : List Char} {lexeme : Lexeme} {rest : List Lexeme}
  {step : Step} {tokens : List Token}

/-- The tokens of a step take the characters of the lexemes that it takes. -/
theorem Reads.tiles (reads : Reads anyCase lexeme rest step)
    (tiles : Lexeme.Tiles start chars (lexeme :: rest)) :
    ∃ stop back, Lexeme.Tiles stop back (rest.drop step.taken) ∧
      ∀ tokens, Tiles stop back tokens → Tiles start chars (step.tokens ++ tokens) := by
  -- One token for a run of lexemes that touch.
  have whole {kind : Kind} {run rest : List Lexeme} {stop : Nat}
      (tiles : Lexeme.Tiles start chars (lexeme :: (run ++ rest)))
      (chain : (lexeme :: run).IsChain fun first second => first.touches second)
      (stop_eq : stop = ((lexeme :: run).getLast (List.cons_ne_nil _ _)).span.stop) :
      ∃ stop' back, Lexeme.Tiles stop' back rest ∧ ∀ tokens, Tiles stop' back tokens →
        Tiles start chars (⟨kind, ⟨lexeme.span.start, stop⟩⟩ :: tokens) := by
    obtain ⟨gap, inside, back, rfl, blank, some, place, last, tiles⟩ := tiles.touching chain
    refine ⟨_, back, tiles, fun tokens later => ?_⟩
    refine ⟨gap, inside, back, rfl, blank, some, place, stop_eq.trans last, ?_⟩
    rw [stop_eq, last]
    exact later
  cases reads with
  | alone rest alone =>
    exact @whole _ [] rest lexeme.span.stop tiles (.singleton _) rfl
  | @wide next operator rest leads touches sign other =>
    refine @whole _ [next] rest (lexeme.span.stop + 1) tiles (.cons_cons touches (.singleton _)) ?_
    have sized := tiles.sized next (by simp)
    have touches : lexeme.span.stop = next.span.start := of_decide_eq_true touches
    change lexeme.span.stop + 1 = next.span.stop
    rw [sized.stop_eq, sized.sign sign, touches]
  | @joined kind more last rest leads chain follows compound =>
    have tiles : Lexeme.Tiles start chars (lexeme :: (more ++ [last] ++ rest)) := by
      simpa using tiles
    have taken : (more ++ last :: rest).drop (more.length + 1) = rest := by simp
    dsimp only
    rw [taken]
    exact @whole kind (more ++ [last]) rest last.span.stop tiles chain (by simp)
  | @divided identifier first designator operator register rest leads touches kind text other read =>
    obtain ⟨gap, after, rfl, blank, sized, place, after_tiles⟩ := tiles
    obtain ⟨between, back, rfl, -, nextSized, next_start, tiles⟩ := after_tiles
    have touches : lexeme.span.stop = identifier.span.start := of_decide_eq_true touches
    obtain rfl : between = [] := Text.eq_nil_of_byteSize (by omega)
    have letter := nextSized.letter kind first designator text
    have some : designator ≠ [] := by
      rintro rfl
      nomatch (Register.read?_nil anyCase).symm.trans read
    have size : Text.byteSize identifier.text = first.utf8Size + Text.byteSize designator := by
      rw [text]
      rfl
    have middle : identifier.span.start + 1 =
        lexeme.span.start + Text.byteSize (lexeme.text ++ [first]) := by
      have single : Text.byteSize [first] = 1 := letter
      rw [← touches, sized.stop_eq, Text.byteSize_append, single, Nat.add_assoc]
    have stop : identifier.span.stop = identifier.span.start + 1 + Text.byteSize designator := by
      rw [nextSized.stop_eq, size, letter, Nat.add_assoc]
    refine ⟨_, back, tiles, fun tokens later => ?_⟩
    refine ⟨gap, lexeme.text ++ [first], designator ++ back, ?_, blank, by simp, place, middle, ?_⟩
    · rw [text]
      simp
    · exact ⟨[], designator, back, rfl, nofun, some, rfl, stop, later⟩

theorem tiles_ofLexemesFrom (lexemes : List Lexeme) (expecting : Bool) (skip : Nat)
    (tiles : Lexeme.Tiles start chars (lexemes.drop skip)) :
    Tiles start chars (ofLexemesFrom anyCase expecting skip lexemes) := by
  induction lexemes generalizing expecting skip start chars with
  | nil =>
    rw [List.drop_nil] at tiles
    exact tiles
  | cons lexeme rest ih =>
    cases skip with
    | succ more => exact ih expecting more tiles
    | zero =>
      obtain ⟨stop, back, later, covers⟩ := (reads_step anyCase expecting lexeme rest).tiles tiles
      exact covers _ (ih _ _ later)

theorem Tiles.start_le (tiles : Tiles start chars tokens) :
    ∀ token ∈ tokens, start ≤ token.span.start := by
  induction tokens generalizing start chars with
  | nil => exact nofun
  | cons token tokens ih =>
    obtain ⟨gap, inside, rest, -, -, -, place, stop, tiles⟩ := tiles
    refine List.forall_mem_cons.mpr ⟨by omega, fun later member => ?_⟩
    have after := ih tiles later member
    omega

/-- Each token spans characters of the text, which do not lie apart. -/
theorem Tiles.spans (done : List Char) (tiles : Tiles (Text.byteSize done) chars tokens) :
    ∀ token ∈ tokens, ∃ before inside after, done ++ chars = before ++ (inside ++ after) ∧
      inside ≠ [] ∧ token.span =
        ⟨Text.byteSize before, Text.byteSize before + Text.byteSize inside⟩ := by
  induction tokens generalizing done chars with
  | nil => exact nofun
  | cons token tokens ih =>
    obtain ⟨gap, inside, rest, rfl, -, some, place, stop, tiles⟩ := tiles
    have before := Text.byteSize_append done gap
    have through := Text.byteSize_append (done ++ gap) inside
    rw [← before] at place
    rw [stop, place, ← through] at tiles
    refine List.forall_mem_cons.mpr ⟨⟨done ++ gap, inside, rest, ?_, some, ?_⟩, ?_⟩
    · simp
    · rw [← place, ← stop]
    · simpa using ih (done ++ gap ++ inside) tiles

theorem Tiles.nonempty (tiles : Tiles start chars tokens) :
    ∀ token ∈ tokens, token.span.start < token.span.stop := by
  induction tokens generalizing start chars with
  | nil => exact nofun
  | cons token tokens ih =>
    obtain ⟨gap, inside, rest, -, -, some, -, stop, tiles⟩ := tiles
    have positive := Text.byteSize_pos some
    exact List.forall_mem_cons.mpr ⟨by omega, ih tiles⟩

theorem Tiles.disjoint (tiles : Tiles start chars tokens) :
    tokens.Pairwise fun first second => first.span.stop ≤ second.span.start := by
  induction tokens generalizing start chars with
  | nil => exact .nil
  | cons token tokens ih =>
    obtain ⟨gap, inside, rest, -, -, -, -, -, tiles⟩ := tiles
    exact .cons tiles.start_le (ih tiles)

/-- A character that is no separator is one of a token. -/
theorem Tiles.covered (tiles : Tiles start chars tokens) {before after : List Char} {c : Char}
    (found : chars = before ++ c :: after) (solid : ¬Lexeme.Separates c) :
    ∃ token ∈ tokens, token.span.start ≤ start + Text.byteSize before ∧
      start + Text.byteSize before + c.utf8Size ≤ token.span.stop := by
  induction tokens generalizing start chars before with
  | nil => exact absurd (tiles c (by simp [found])) solid
  | cons token tokens ih =>
    obtain ⟨gap, inside, rest, rfl, blank, -, place, stop, tiles⟩ := tiles
    rcases Text.place_append found with ⟨member, -⟩ | ⟨more, rfl, found⟩
    · exact absurd (blank c member) solid
    rcases Text.place_append ‹inside ++ rest = _› with ⟨-, later, rfl⟩ | ⟨more, rfl, same⟩
    · refine ⟨token, List.mem_cons_self, ?_, ?_⟩
      · rw [Text.byteSize_append]
        omega
      · have size : Text.byteSize (c :: later) = c.utf8Size + Text.byteSize later := rfl
        rw [Text.byteSize_append, size] at stop
        rw [Text.byteSize_append]
        omega
    · obtain ⟨holder, member, starts, stops⟩ := ih tiles same
      refine ⟨holder, List.mem_cons_of_mem _ member, ?_⟩
      rw [Text.byteSize_append, Text.byteSize_append]
      omega

/-- Tokens cover a text: no character is left out or read twice. -/
structure Cover (text : List Char) (tokens : List Token) : Prop where
  /-- A token begins and ends between characters, and spans at least one. -/
  spans : ∀ token ∈ tokens, ∃ before inside after, text = before ++ (inside ++ after) ∧ inside ≠ [] ∧
    token.span = ⟨Text.byteSize before, Text.byteSize before + Text.byteSize inside⟩
  nonempty : ∀ token ∈ tokens, token.span.start < token.span.stop
  increasing : tokens.Pairwise fun first second => first.span.start < second.span.start
  disjoint : tokens.Pairwise fun first second => first.span.stop ≤ second.span.start
  /-- What is in no token is a blank or a tab. -/
  covered : ∀ before c after, text = before ++ c :: after →
    (∃ token ∈ tokens, token.span.start ≤ Text.byteSize before ∧
      Text.byteSize before + c.utf8Size ≤ token.span.stop) ∨ c = ' ' ∨ c = '\t'

end Token

/-- The tokens of a text, whatever it is, lie in it one after another, and only blanks and tabs lie
between them. -/
theorem tokenize_covers (text : List Char) (anyCase : Bool) :
    Token.Cover text (tokenize text anyCase) := by
  have tiles : Token.Tiles 0 text (tokenize text anyCase) :=
    Token.tiles_ofLexemesFrom _ _ 0 (Lexeme.tiles_scanFrom 0 text)
  constructor
  case spans => exact tiles.spans []
  case nonempty => exact tiles.nonempty
  case increasing =>
    refine tiles.disjoint.imp_of_mem fun first _ before => ?_
    exact Nat.lt_of_lt_of_le (tiles.nonempty _ first) before
  case disjoint => exact tiles.disjoint
  case covered =>
    intro before c after found
    by_cases separates : Lexeme.Separates c
    · exact .inr separates
    · have place : 0 + Text.byteSize before = Text.byteSize before := Nat.zero_add _
      have covered := tiles.covered found separates
      rw [place] at covered
      exact .inl covered

end CrayAssembler
