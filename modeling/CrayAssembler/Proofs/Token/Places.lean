import CrayAssembler.Proofs.Text.Digits
import CrayAssembler.Proofs.Token.Spelling
import CrayAssembler.Proofs.Token.Steps

namespace CrayAssembler

namespace Text

theorem byteSize_append (first second : List Char) :
    byteSize (first ++ second) = byteSize first + byteSize second := by
  induction first with
  | nil => exact (Nat.zero_add _).symm
  | cons c first ih =>
    change c.utf8Size + byteSize (first ++ second) = c.utf8Size + byteSize first + byteSize second
    rw [ih, Nat.add_assoc]

theorem dropBytes_append (done rest : List Char) : dropBytes (byteSize done) (done ++ rest) = rest := by
  induction done with
  | nil => cases rest <;> rfl
  | cons c done ih =>
    have positive := c.utf8Size_pos
    change dropBytes (c.utf8Size + byteSize done) (c :: (done ++ rest)) = rest
    rw [dropBytes, if_neg (by omega), Nat.add_sub_cancel_left]
    exact ih

theorem takeBytes_append (first rest : List Char) :
    takeBytes (byteSize first) (first ++ rest) = first := by
  induction first with
  | nil => cases rest <;> rfl
  | cons c first ih =>
    have positive := c.utf8Size_pos
    change takeBytes (c.utf8Size + byteSize first) (c :: (first ++ rest)) = c :: first
    rw [takeBytes, if_neg (by omega), Nat.add_sub_cancel_left, ih]

theorem takeBytes_prefix (count : Nat) (chars : List Char) : takeBytes count chars <+: chars := by
  induction chars generalizing count with
  | nil => exact List.prefix_refl _
  | cons c chars ih =>
    unfold takeBytes
    split
    · exact List.nil_prefix
    · exact List.cons_prefix_cons.mpr ⟨rfl, ih _⟩

theorem trimStart_append {blanks : List Char} (blank : ∀ c ∈ blanks, isBlank c) (rest : List Char) :
    trimStart (blanks ++ rest) = trimStart rest := by
  induction blanks with
  | nil => rfl
  | cons c blanks ih =>
    obtain ⟨first, others⟩ := List.forall_mem_cons.mp blank
    unfold trimStart
    rw [List.cons_append, List.dropWhile_cons_of_pos first]
    exact ih others

theorem trimStart_takeBytes {blanks : List Char} (blank : ∀ c ∈ blanks, isBlank c) (count : Nat)
    (rest : List Char) :
    trimStart (takeBytes count (blanks ++ rest)) =
      trimStart (takeBytes (count - byteSize blanks) rest) := by
  induction blanks generalizing count with
  | nil => rfl
  | cons c blanks ih =>
    obtain ⟨first, others⟩ := List.forall_mem_cons.mp blank
    rw [List.cons_append, takeBytes]
    split
    case isTrue none =>
      rw [none, Nat.zero_sub]
      cases rest <;> rfl
    case isFalse =>
      have size : byteSize (c :: blanks) = c.utf8Size + byteSize blanks := rfl
      rw [size, ← Nat.sub_sub, ← ih others]
      exact List.dropWhile_cons_of_pos first

/-- Blanks at the start of a slice make no difference to its text. -/
theorem trim_slice_blanks (done : List Char) {blanks : List Char} (blank : ∀ c ∈ blanks, isBlank c)
    (rest : List Char) (stop : Nat) :
    trim (slice (done ++ (blanks ++ rest)) (byteSize done) stop) =
      trim (slice (done ++ (blanks ++ rest)) (byteSize (done ++ blanks)) stop) := by
  unfold trim slice
  rw [dropBytes_append, ← List.append_assoc, dropBytes_append, trimStart_takeBytes blank,
    byteSize_append, Nat.sub_sub]

theorem trimStart_cons {c : Char} (solid : isBlank c = false) (rest : List Char) :
    trimStart (c :: rest) = c :: rest :=
  List.dropWhile_cons_of_neg (Bool.eq_false_iff.mp solid)

theorem trimEnd_prefix (chars : List Char) : trimEnd chars <+: chars := by
  have suffix := List.dropWhile_suffix (l := chars.reverse) isBlank
  have reversed := List.reverse_prefix.mpr suffix
  rwa [List.reverse_reverse] at reversed

theorem trimEnd_append {c : Char} (solid : isBlank c = false) (chars : List Char) :
    trimEnd (chars ++ [c]) = chars ++ [c] := by
  unfold trimEnd dropEndWhile
  rw [List.reverse_append, List.reverse_singleton, List.singleton_append,
    List.dropWhile_cons_of_neg (Bool.eq_false_iff.mp solid), List.reverse_cons, List.reverse_reverse]

theorem not_isBlank_of_isDigit {c : Char} (digit : c.isDigit) : isBlank c = false := by
  obtain ⟨low, high⟩ := toNat_of_isDigit digit
  simp only [isBlank, Bool.or_eq_false_iff, Bool.and_eq_false_iff, decide_eq_false_iff_not]
  omega

theorem not_isDigit_of_isBlank {c : Char} (blank : isBlank c) : c.isDigit = false := by
  refine Bool.eq_false_iff.mpr fun digit => ?_
  rw [not_isBlank_of_isDigit digit] at blank
  cases blank

theorem not_isAlpha_of_isBlank {c : Char} (blank : isBlank c) : c.isAlpha = false := by
  simp only [isBlank, Bool.or_eq_true, Bool.and_eq_true, decide_eq_true_eq] at blank
  refine Bool.eq_false_iff.mpr fun alpha => ?_
  rcases Bool.or_eq_true_iff.mp alpha with upper | lower
  · have bounds : 65 ≤ c.toNat ∧ c.toNat ≤ 90 := of_decide_eq_true upper
    omega
  · obtain ⟨low, high⟩ := Bool.and_eq_true_iff.mp lower
    have low : 97 ≤ c.toNat := of_decide_eq_true low
    have high : c.toNat ≤ 122 := of_decide_eq_true high
    omega

theorem toUpper_of_isBlank {c : Char} (blank : isBlank c) : c.toUpper = c := by
  simp only [isBlank, Bool.or_eq_true, Bool.and_eq_true, decide_eq_true_eq] at blank
  unfold Char.toUpper
  refine dif_neg ?_
  rintro ⟨low, high⟩
  have low : 97 ≤ c.toNat := low
  have high : c.toNat ≤ 122 := high
  omega

end Text

theorem Identifier.not_isMark_of_isBlank {c : Char} (blank : Text.isBlank c) : isMark c = false := by
  have other (d : Char) (solid : Text.isBlank d = false) : c ≠ d := by
    rintro rfl
    rw [solid] at blank
    cases blank
  unfold isMark
  rw [decide_eq_false (other '$' (by decide)), decide_eq_false (other '@' (by decide)),
    decide_eq_false (other '%' (by decide))]
  rfl

theorem Justification.not_isBlank_of_ofSuffix? {c : Char} {justification : Justification}
    (known : ofSuffix? c = some justification) : Text.isBlank c = false := by
  refine Bool.eq_false_iff.mpr fun blank => ?_
  unfold ofSuffix? at known
  rw [Text.toUpper_of_isBlank blank] at known
  split at known
  · exact absurd blank (by decide)
  · exact absurd blank (by decide)
  · exact absurd blank (by decide)
  · exact absurd blank (by decide)
  · nomatch known

namespace CharConstant

/-- A text in which every apostrophe is written twice. -/
inductive Doubled : List Char → Prop
  | nil : Doubled []
  | quote {text : List Char} (doubled : Doubled text) : Doubled ('\'' :: '\'' :: text)
  | char {c : Char} {text : List Char} (other : c ≠ '\'') (doubled : Doubled text) :
      Doubled (c :: text)

/-- The body ends at the same place when less of what follows it is there. -/
theorem readBody_prefix {chars body after : List Char}
    (found : readBody chars = some (body, after)) :
    ∃ taken, chars = taken ++ '\'' :: after ∧ Doubled taken ∧
      ∀ other, other <+: after → readBody (taken ++ '\'' :: other) = some (body, other) := by
  fun_induction readBody chars generalizing body after with
  | case1 => nomatch found
  | case2 rest ih =>
    obtain ⟨⟨inner, last⟩, found, ⟨⟩⟩ := Option.map_eq_some_iff.mp found
    obtain ⟨taken, rfl, doubled, again⟩ := ih found
    refine ⟨'\'' :: '\'' :: taken, rfl, .quote doubled, fun other shorter => ?_⟩
    rw [List.cons_append, List.cons_append, readBody, again other shorter]
    rfl
  | case3 rest single =>
    obtain ⟨⟩ := found
    refine ⟨[], rfl, .nil, fun other shorter => ?_⟩
    obtain ⟨more, rfl⟩ := shorter
    rw [List.nil_append, readBody]
    rintro rest rfl
    exact single (rest ++ more) rfl
  | case4 c rest double single ih =>
    obtain ⟨⟨inner, last⟩, found, ⟨⟩⟩ := Option.map_eq_some_iff.mp found
    obtain ⟨taken, rfl, doubled, again⟩ := ih found
    refine ⟨c :: taken, rfl, .char single doubled, fun other shorter => ?_⟩
    rw [List.cons_append, readBody, again other shorter]
    · rfl
    · exact fun _ quote _ => single quote
    · exact single

theorem takeWhile_prefix_dropWhile {p : Char → Bool} {chars other : List Char}
    (shorter : other <+: chars.dropWhile p) :
    (chars.takeWhile p ++ other).takeWhile p = chars.takeWhile p := by
  rw [List.takeWhile_append_of_pos (List.all_eq_true.mp List.all_takeWhile)]
  have stops : other.takeWhile p = [] := by
    cases other with
    | nil => rfl
    | cons c other =>
      obtain ⟨more, same⟩ := shorter
      have stop := List.head?_dropWhile_not p chars
      rw [← same] at stop
      exact List.takeWhile_cons_of_neg (Bool.eq_false_iff.mp stop)
  rw [stops, List.append_nil]

theorem readCount_prefix {chars after : List Char} {count : CharCount}
    (found : readCount chars = some (count, after)) :
    ∃ taken, chars = taken ++ after ∧ (∀ c ∈ taken, c = '*' ∨ c.isDigit) ∧
      ∀ other, other <+: after → readCount (taken ++ other) = some (count, other) := by
  unfold readCount at found
  split at found
  case h_1 rest =>
    obtain ⟨⟩ := found
    exact ⟨['*'], rfl, List.forall_mem_singleton.mpr (.inl rfl), fun _ _ => rfl⟩
  case h_2 star =>
    have divided : chars.takeWhile Char.isDigit ++ chars.dropWhile Char.isDigit = chars :=
      List.takeWhile_append_dropWhile
    have dropped : chars.drop (chars.takeWhile Char.isDigit).length = chars.dropWhile Char.isDigit := by
      conv => lhs; arg 2; rw [← divided]
      exact List.drop_left
    have digits : ∀ c ∈ chars.takeWhile Char.isDigit, c.isDigit :=
      List.all_eq_true.mp List.all_takeWhile
    -- The digits are read again, and nothing before or after them is taken for a count.
    have again : ∀ other, other <+: chars.dropWhile Char.isDigit →
        readCount (chars.takeWhile Char.isDigit ++ other) =
          (Numeral.natural? (chars.takeWhile Char.isDigit)).elim
            (some (.words, chars.takeWhile Char.isDigit ++ other))
            fun n => if n < UInt64.size then some (.chars n, other) else none := by
      intro other shorter
      unfold readCount
      split
      case h_1 rest same =>
        obtain ⟨more, others⟩ := shorter
        refine (star (rest ++ more) (divided.symm.trans ?_)).elim
        rw [← others, ← List.append_assoc, same]
        rfl
      case h_2 =>
        dsimp only
        rewrite [takeWhile_prefix_dropWhile shorter, List.drop_left]
        cases Numeral.natural? (chars.takeWhile Char.isDigit) <;> rfl
    dsimp only at found
    rw [dropped] at found
    cases value : Numeral.natural? (chars.takeWhile Char.isDigit) with
    | none =>
      rw [value] at found
      obtain ⟨⟩ := found
      have empty : chars.takeWhile Char.isDigit = [] := by
        refine Decidable.byContradiction fun nonempty => ?_
        rw [Numeral.natural?_eq nonempty digits] at value
        nomatch value
      rw [empty, List.nil_append] at divided
      refine ⟨[], rfl, List.forall_mem_nil _, fun other shorter => ?_⟩
      have result := again other (by rwa [divided])
      rwa [value, empty] at result
    | some n =>
      rw [value] at found
      dsimp only at found
      split at found
      case isTrue small =>
        obtain ⟨⟩ := found
        refine ⟨_, divided.symm, fun c member => .inr (digits c member), ?_⟩
        intro other shorter
        have result := again other shorter
        rw [value] at result
        exact result.trans (if_pos small)
      case isFalse => cases found

theorem readJustification_taken {chars after : List Char} {justification : Justification}
    (found : readJustification chars = (justification, after)) :
    ∃ taken, chars = taken ++ after ∧ (∀ c ∈ taken, (Justification.ofSuffix? c).isSome) ∧
      readJustification taken = (justification, []) := by
  unfold readJustification at found
  split at found
  · cases found
    exact ⟨[], rfl, List.forall_mem_nil _, rfl⟩
  case h_2 c rest =>
    split at found
    · cases found
      exact ⟨[], rfl, List.forall_mem_nil _, rfl⟩
    case h_2 letter known =>
      split at found
      · cases found
        exact ⟨[], rfl, List.forall_mem_nil _, rfl⟩
      · cases found
        refine ⟨[c], rfl, ?_, ?_⟩
        · exact List.forall_mem_singleton.mpr (Option.isSome_of_eq_some known)
        · unfold readJustification
          dsimp only
          rw [known]
          rfl

/-- A constant is read again from the characters that it takes, of which the last is no blank. -/
theorem read_taken {chars rest : List Char} {constant : CharConstant}
    (found : read chars = some (constant, rest)) :
    ∃ front last, chars = (front ++ [last]) ++ rest ∧ Text.isBlank last = false ∧
      read (front ++ [last]) = some (constant, []) := by
  unfold read at found
  obtain ⟨⟨body, afterBody⟩, readBody, found⟩ := Option.bind_eq_some_iff.mp found
  obtain ⟨⟨count, afterCount⟩, readCount, found⟩ := Option.bind_eq_some_iff.mp found
  dsimp only at found
  cases readLetter : readJustification afterCount with
  | mk justification last =>
  rw [readLetter] at found
  obtain ⟨⟩ := found
  obtain ⟨text, rfl, -, again⟩ := readBody_prefix readBody
  obtain ⟨number, rfl, digits, numberAgain⟩ := readCount_prefix readCount
  obtain ⟨letter, rfl, letters, letterAgain⟩ := readJustification_taken readLetter
  have numberSolid : ∀ c ∈ number, Text.isBlank c = false := by
    intro c member
    rcases digits c member with rfl | digit
    · decide
    · exact Text.not_isBlank_of_isDigit digit
  have letterSolid : ∀ c ∈ letter, Text.isBlank c = false := by
    intro c member
    obtain ⟨_, known⟩ := Option.isSome_iff_exists.mp (letters c member)
    exact Justification.not_isBlank_of_ofSuffix? known
  have whole : read (text ++ '\'' :: (number ++ letter)) =
      some (⟨Text.bytes body, count, justification⟩, []) := by
    unfold read
    rw [again (number ++ letter) ⟨last, List.append_assoc ..⟩]
    change (CharConstant.readCount (number ++ letter)).bind _ = _
    rw [numberAgain letter ⟨last, rfl⟩]
    change some (CharConstant.mk _ _ (readJustification letter).1, (readJustification letter).2) = _
    rw [letterAgain]
  have solid : ∀ c ∈ '\'' :: (number ++ letter), Text.isBlank c = false :=
    List.forall_mem_cons.mpr ⟨by decide, List.forall_mem_append.mpr ⟨numberSolid, letterSolid⟩⟩
  obtain ⟨front, last, divided⟩ : ∃ front last, '\'' :: (number ++ letter) = front ++ [last] :=
    ⟨_, _, (List.dropLast_concat_getLast (List.cons_ne_nil _ _)).symm⟩
  refine ⟨text ++ front, last, ?_, ?_, ?_⟩
  · rw [List.append_assoc text, ← divided, List.append_assoc, List.cons_append, List.append_assoc]
  · exact solid last (divided ▸ List.mem_append_right _ (List.mem_singleton.mpr rfl))
  · rw [List.append_assoc, ← divided]
    exact whole

end CharConstant

namespace Lexeme

variable {c : Char} {rest : List Char} {constant : CharConstant} {taken : Nat}

/-- A constant is read again from the characters that it takes. -/
theorem readString_taken {justified : Option Justification} {chars : List Char}
    (found : readString justified chars = (.string constant, taken)) :
    ∃ front last, chars.take taken = front ++ [last] ∧ Text.isBlank last = false ∧
      readString justified (chars.take taken) = (.string constant, taken) := by
  unfold readString at found
  cases reading : CharConstant.read chars with
  | none =>
    rw [reading] at found
    nomatch found
  | some result =>
    obtain ⟨plain, others⟩ := result
    rw [reading] at found
    obtain ⟨kind, length⟩ := Prod.mk.inj found
    obtain ⟨front, last, rfl, solid, again⟩ := CharConstant.read_taken reading
    have count : (front ++ [last]).length = taken := by
      rw [← length, @List.length_append _ (front ++ [last]), Nat.add_sub_cancel]
    have text : (front ++ [last] ++ others).take taken = front ++ [last] := by
      rw [← count]
      exact List.take_left
    refine ⟨front, last, text, solid, ?_⟩
    rw [text]
    unfold readString
    rw [again]
    exact Prod.ext kind count

/-- A blank that separates no lexemes is no lexeme of its own kind. -/
theorem kind_of_isBlank (blank : Text.isBlank c) (rest : List Char) :
    (read c rest).1 = .unknown := by
  have other (d : Char) (solid : Text.isBlank d = false) : c ≠ d := by
    rintro rfl
    rw [solid] at blank
    cases blank
  have upper := Text.toUpper_of_isBlank blank
  have radix : radix? c = none := by
    unfold radix?
    rw [upper]
    split
    · exact absurd blank (by decide)
    · exact absurd blank (by decide)
    · exact absurd blank (by decide)
    · rfl
  have start : Identifier.startChar c = false := by
    unfold Identifier.startChar
    rw [Text.not_isAlpha_of_isBlank blank, Identifier.not_isMark_of_isBlank blank]
    rfl
  have digit := Text.not_isDigit_of_isBlank blank
  have sign : signKind c = .unknown := by
    unfold signKind Operator.ofSign?
    split
    · exact absurd blank (by decide)
    · exact absurd blank (by decide)
    · exact absurd blank (by decide)
    · exact absurd blank (by decide)
    · split
      case h_1 found =>
        split at found
        all_goals first | exact absurd blank (by decide) | nomatch found
      · rfl
  unfold read
  rw [if_neg (other '\'' (by decide)), upper, decide_eq_false (other 'A' (by decide)), radix, start,
    digit, sign]
  rfl

theorem read_taken (found : read c rest = (.string constant, taken)) :
    ∃ front last, c :: rest.take taken = front ++ [last] ∧ Text.isBlank last = false ∧
      Text.isBlank c = false ∧ read c (rest.take taken) = (.string constant, taken) := by
  have solid : Text.isBlank c = false := by
    refine Bool.eq_false_iff.mpr fun blank => ?_
    have unknown := kind_of_isBlank blank rest
    rw [found] at unknown
    nomatch unknown
  by_cases opens : Opens c rest
  case neg => exact absurd (congrArg Prod.fst found) (kind_of_not_opens opens constant)
  by_cases quote : c = '\''
  · unfold read at found
    rw [if_pos quote] at found
    obtain ⟨front, last, text, lastSolid, again⟩ := readString_taken found
    refine ⟨c :: front, last, by rw [text]; rfl, lastSolid, solid, ?_⟩
    unfold read
    rw [if_pos quote]
    exact again
  · obtain ⟨letter, next⟩ := opens.resolve_left quote
    cases rest with
    | nil => nomatch next
    | cons mark body =>
      obtain rfl : mark = '\'' := Option.some.inj next
      rw [read_letter letter quote] at found
      obtain ⟨kind, length⟩ := Prod.mk.inj found
      subst length
      obtain ⟨front, last, text, lastSolid, again⟩ := readString_taken (Prod.ext kind rfl)
      refine ⟨c :: '\'' :: front, last, by rw [take_quote, text]; rfl, lastSolid, solid, ?_⟩
      rw [take_quote, read_letter letter quote, again]

end Lexeme

/-- The character constant that a text begins with. -/
def Text.constant? : List Char → Option CharConstant
  | [] => none
  | c :: rest =>
    match (Lexeme.read c rest).1 with
    | .string constant => some constant
    | _ => none

namespace Text

variable {done blanks rest : List Char} {c : Char} (blank : ∀ b ∈ blanks, isBlank b)

include blank

/-- A constant between blanks and the end of a slice is what the slice begins with. -/
theorem constant?_slice {constant : CharConstant} {taken : Nat}
    (found : Lexeme.read c rest = (.string constant, taken)) :
    constant? (trim (slice (done ++ (blanks ++ c :: rest)) (byteSize done)
      (byteSize done + byteSize (blanks ++ c :: rest.take taken)))) = some constant := by
  obtain ⟨front, last, text, lastSolid, solid, again⟩ := Lexeme.read_taken found
  have divided : blanks ++ c :: rest = (blanks ++ c :: rest.take taken) ++ rest.drop taken := by
    rw [List.append_assoc, List.cons_append, List.take_append_drop]
  unfold slice trim
  rw [dropBytes_append, Nat.add_sub_cancel_left, divided, takeBytes_append, trimStart_append blank,
    trimStart_cons solid, text, trimEnd_append lastSolid, ← text]
  change (match (Lexeme.read c (rest.take taken)).1 with
    | .string constant => some constant
    | _ => none) = _
  rw [again]

theorem trimStart_prefix (solid : isBlank c = false) {part : List Char}
    (shorter : part <+: blanks ++ c :: rest) :
    trimStart part = [] ∨ ∃ others, others <+: rest ∧ trimStart part = c :: others := by
  induction blanks generalizing part with
  | nil =>
    cases part with
    | nil => exact .inl rfl
    | cons d others =>
      obtain ⟨rfl, fewer⟩ := List.cons_prefix_cons.mp shorter
      exact .inr ⟨others, fewer, trimStart_cons solid others⟩
  | cons b blanks ih =>
    obtain ⟨first, others⟩ := List.forall_mem_cons.mp blank
    cases part with
    | nil => exact .inl rfl
    | cons d part =>
      obtain ⟨rfl, fewer⟩ := List.cons_prefix_cons.mp shorter
      rw [show trimStart (d :: part) = trimStart part from List.dropWhile_cons_of_pos first]
      exact ih others fewer

/-- Where no constant is opened, no slice begins with one. -/
theorem constant?_slice_none (solid : isBlank c = false) (closed : ¬Lexeme.Opens c rest) (stop : Nat) :
    constant? (trim (slice (done ++ (blanks ++ c :: rest)) (byteSize done) stop)) = none := by
  unfold slice trim
  rw [dropBytes_append]
  have shorter := takeBytes_prefix (stop - byteSize done) (blanks ++ c :: rest)
  have ended := trimEnd_prefix (trimStart (takeBytes (stop - byteSize done) (blanks ++ c :: rest)))
  rcases trimStart_prefix blank solid shorter with empty | ⟨others, others_prefix, found⟩
  · rw [empty] at ended ⊢
    rw [List.prefix_nil.mp ended]
    rfl
  · rw [found] at ended ⊢
    cases trimmed : trimEnd (c :: others) with
    | nil => rfl
    | cons d last =>
      rw [trimmed] at ended
      obtain ⟨rfl, last_prefix⟩ := List.cons_prefix_cons.mp ended
      have still : ¬Lexeme.Opens d last := by
        rintro (quote | ⟨letter, next⟩)
        · exact closed (.inl quote)
        · refine closed (.inr ⟨letter, ?_⟩)
          obtain ⟨more, rfl⟩ := last_prefix.trans others_prefix
          rw [List.head?_append, next]
          rfl
      change (match (Lexeme.read d last).1 with
        | .string constant => some constant
        | _ => none) = none
      split
      case h_1 constant kind => exact absurd kind (Lexeme.kind_of_not_opens still constant)
      case h_2 => rfl

end Text

namespace Token

/-- What the text after byte offset `start` begins with, if the token is the first one there. -/
structure Begins (text : List Char) (start : Nat) (token : Token) : Prop where
  constant : ∀ constant, token.kind = .string constant →
    Text.constant? (Text.trim (Text.slice text start token.span.stop)) = some constant
  other : token.isError = false → (∀ constant, token.kind ≠ .string constant) →
    ∀ stop, Text.constant? (Text.trim (Text.slice text start stop)) = none

/-- Every token after an equals sign is what the text begins with where it starts. -/
def Laid (text : List Char) : List Token → Prop
  | [] => True
  | token :: rest =>
    (token.kind = .operator .equals → ∀ next ∈ rest.head?, Begins text next.span.start next) ∧
      Laid text rest

theorem Laid.of_append {text : List Char} {first second : List Token} (laid : Laid text (first ++ second)) :
    Laid text first ∧ Laid text second := by
  induction first with
  | nil => exact ⟨trivial, laid⟩
  | cons token first ih =>
    obtain ⟨begins, laid⟩ := laid
    refine ⟨⟨fun kind next member => begins kind next ?_, (ih laid).1⟩, (ih laid).2⟩
    cases first with
    | nil => nomatch member
    | cons => exact member

/-- A step that gives tokens, none of them an equals sign or a character constant. -/
def Step.Plain (step : Step) : Prop :=
  step.tokens ≠ [] ∧ ∀ token ∈ step.tokens,
    token.kind ≠ .operator .equals ∧ ∀ constant, token.kind ≠ .string constant

theorem plain_single {kind : Kind} (span : Span) (taken : Nat) (sign : kind ≠ .operator .equals)
    (constant : ∀ constant, kind ≠ .string constant) : Step.Plain ⟨[⟨kind, span⟩], taken⟩ :=
  ⟨List.cons_ne_nil _ _, List.forall_mem_singleton.mpr ⟨sign, constant⟩⟩

/-- An equals sign and a character constant are tokens by themselves, and no other token is one. -/
theorem step_cases (anyCase expecting : Bool) (lexeme : Lexeme) (rest : List Lexeme) :
    lexeme.kind = .operator .equals ∧
        step anyCase expecting lexeme rest = ⟨[⟨.operator .equals, lexeme.span⟩], 0⟩ ∨
      (∃ constant, lexeme.kind = .string constant ∧
        step anyCase expecting lexeme rest = ⟨[⟨.string constant, lexeme.span⟩], 0⟩) ∨
      (step anyCase expecting lexeme rest).Plain ∧ (∀ constant, lexeme.kind ≠ .string constant) ∧
        (lexeme.kind = .unknown → ∀ token ∈ (step anyCase expecting lexeme rest).tokens,
          token.isError) := by
  have reads := reads_step anyCase expecting lexeme rest
  generalize step anyCase expecting lexeme rest = step at reads ⊢
  have compound {step : Step} (leads : lexeme.kind.Leads) (plain : step.Plain) :
      step.Plain ∧ (∀ constant, lexeme.kind ≠ .string constant) ∧
        (lexeme.kind = .unknown → ∀ token ∈ step.tokens, token.isError) := by
    refine ⟨plain, fun constant same => ?_, fun same => ?_⟩
    all_goals
      rw [same] at leads
      exact leads.elim
  cases reads with
  | alone rest alone =>
    generalize lexeme.kind = kind at alone ⊢
    cases alone with
    | string constant => exact .inr (.inl ⟨constant, rfl, rfl⟩)
    | operator sign =>
      by_cases equals : sign = .equals
      · subst equals
        exact .inl ⟨rfl, rfl⟩
      · refine .inr (.inr ⟨plain_single _ _ ?_ nofun, nofun, nofun⟩)
        rintro ⟨⟩
        exact equals rfl
    | unknown message =>
      refine .inr (.inr ⟨plain_single _ _ nofun nofun, nofun, fun _ => ?_⟩)
      exact List.forall_mem_singleton.mpr rfl
    | _ => exact .inr (.inr ⟨plain_single _ _ nofun nofun, nofun, nofun⟩)
  | wide rest leads touches sign other =>
    refine .inr (.inr (compound leads (plain_single _ _ ?_ nofun)))
    rintro ⟨⟩
    exact other rfl
  | joined rest leads chain follows kind =>
    refine .inr (.inr (compound leads (plain_single _ _ ?_ ?_)))
    · rintro rfl
      exact kind
    · rintro constant rfl
      exact kind
  | divided rest leads touches kind text other read =>
    refine .inr (.inr (compound leads ⟨List.cons_ne_nil _ _, ?_⟩))
    refine List.forall_mem_cons.mpr ⟨⟨?_, nofun⟩, List.forall_mem_singleton.mpr ⟨nofun, nofun⟩⟩
    rintro ⟨⟩
    exact other rfl

theorem step_ne_nil (anyCase expecting : Bool) (lexeme : Lexeme) (rest : List Lexeme) :
    (step anyCase expecting lexeme rest).tokens ≠ [] := by
  rcases step_cases anyCase expecting lexeme rest with ⟨-, result⟩ | ⟨_, -, result⟩ | ⟨plain, -⟩
  · rw [result]
    exact List.cons_ne_nil _ _
  · rw [result]
    exact List.cons_ne_nil _ _
  · exact plain.1

/-- The tokens of a lexeme start where it does. -/
theorem startsAt_step (anyCase expecting : Bool) (lexeme : Lexeme) (rest : List Lexeme) :
    ∀ token ∈ (step anyCase expecting lexeme rest).tokens.head?,
      token.span.start = lexeme.span.start := by
  have reads := reads_step anyCase expecting lexeme rest
  generalize step anyCase expecting lexeme rest = step at reads ⊢
  cases reads
  all_goals
    rintro _ ⟨⟩
    rfl

/-- Every equals sign counts, wherever it stands. -/
theorem laid_of_forall {text : List Char} {tokens : List Token}
    (each : ∀ before sign after, tokens = before ++ sign :: after → sign.kind = .operator .equals →
      ∀ next ∈ after.head?, Begins text next.span.start next) : Laid text tokens := by
  induction tokens with
  | nil => trivial
  | cons token rest ih =>
    refine ⟨each [] token rest rfl, ih fun before sign after same => ?_⟩
    exact each (token :: before) sign after (congrArg (token :: ·) same)

variable {anyCase expecting : Bool} {done blanks : List Char}

/-- The first token of a lexeme is what the text begins with where the lexeme stands. -/
theorem begins_step (blank : ∀ b ∈ blanks, Text.isBlank b) {c : Char} {rest : List Char}
    {kind : Lexeme.Kind} {taken : Nat} (found : Lexeme.read c rest = (kind, taken)) (start : Nat)
    (others : List Lexeme) {token : Token}
    (member : token ∈ (step anyCase expecting ⟨kind, c :: rest.take taken, start,
      Text.byteSize done + Text.byteSize (blanks ++ c :: rest.take taken)⟩ others).tokens) :
    Begins (done ++ (blanks ++ c :: rest)) (Text.byteSize done) token := by
  have none (unknown : kind ≠ .unknown) (string : ∀ constant, kind ≠ .string constant) (stop : Nat) :
      Text.constant? (Text.trim (Text.slice (done ++ (blanks ++ c :: rest)) (Text.byteSize done)
        stop)) = none := by
    refine Text.constant?_slice_none blank ?_ (fun opens => ?_) stop
    · refine Bool.eq_false_iff.mpr fun isBlank => unknown ?_
      have same := Lexeme.kind_of_isBlank isBlank rest
      rwa [found] at same
    · have kinds := Lexeme.kind_of_opens opens
      rw [found] at kinds
      obtain same | ⟨constant, same⟩ := kinds
      · exact unknown same
      · exact string constant same
  rcases step_cases anyCase expecting ⟨kind, c :: rest.take taken, start,
      Text.byteSize done + Text.byteSize (blanks ++ c :: rest.take taken)⟩ others with
    ⟨sign, result⟩ | ⟨constant, string, result⟩ | ⟨⟨-, plain⟩, string, error⟩
  · rw [result] at member
    obtain rfl := List.mem_singleton.mp member
    obtain rfl : kind = .operator .equals := sign
    exact ⟨nofun, fun _ _ => none nofun nofun⟩
  · rw [result] at member
    obtain rfl := List.mem_singleton.mp member
    obtain rfl : kind = .string constant := string
    refine ⟨?_, fun _ other => absurd rfl (other constant)⟩
    rintro _ ⟨⟩
    exact Text.constant?_slice blank found
  · refine ⟨fun constant same => absurd same ((plain token member).2 constant), fun valid _ => ?_⟩
    refine none (fun unknown => ?_) string
    rw [error unknown token member] at valid
    nomatch valid

/-- What separates lexemes is blank. -/
theorem blanks_concat {c : Char} (blank : ∀ b ∈ blanks, Text.isBlank b)
    (separator : (decide (c = ' ') || decide (c = '\t')) = true) :
    ∀ b ∈ blanks ++ [c], Text.isBlank b := by
  have isBlank : Text.isBlank c := by
    simp only [Bool.or_eq_true, decide_eq_true_eq] at separator
    rcases separator with rfl | rfl <;> decide
  exact List.forall_mem_append.mpr ⟨blank, List.forall_mem_singleton.mpr isBlank⟩

/-- The first token of what is scanned is what the text begins with there, blanks aside. -/
theorem begins_scanFrom (blank : ∀ b ∈ blanks, Text.isBlank b) (chars : List Char) :
    ∀ next ∈ (ofLexemesFrom anyCase expecting 0
        (Lexeme.scanFrom (Text.byteSize (done ++ blanks)) 0 chars)).head?,
      Begins (done ++ (blanks ++ chars)) (Text.byteSize done) next := by
  induction chars generalizing blanks with
  | nil => exact nofun
  | cons c rest ih =>
    unfold Lexeme.scanFrom
    dsimp only
    split
    case isTrue separator =>
      have more := ih (blanks_concat blank separator)
      rw [← List.append_assoc, Text.byteSize_append (done ++ blanks), List.append_assoc blanks] at more
      exact more
    case isFalse =>
      cases found : Lexeme.read c rest with
      | mk kind taken =>
      unfold ofLexemesFrom
      dsimp only
      rw [show Text.byteSize (done ++ blanks) + Text.byteSize (c :: rest.take taken) =
        Text.byteSize done + Text.byteSize (blanks ++ c :: rest.take taken) by
          rw [Text.byteSize_append, Text.byteSize_append, Nat.add_assoc]]
      intro next member
      rw [List.head?_append_of_ne_nil _ (step_ne_nil _ _ _ _)] at member
      exact begins_step blank found _ _ (List.mem_of_mem_head? member)

/-- The token is the first one after byte offset `start`, blanks aside: the text from there on and
the text from the token on are the same when trimmed. -/
def Stands (text : List Char) (start : Nat) (token : Token) : Prop :=
  ∀ stop, Text.trim (Text.slice text start stop) =
    Text.trim (Text.slice text token.span.start stop)

theorem stands_scanFrom (blank : ∀ b ∈ blanks, Text.isBlank b) (chars : List Char) :
    ∀ next ∈ (ofLexemesFrom anyCase expecting 0
        (Lexeme.scanFrom (Text.byteSize (done ++ blanks)) 0 chars)).head?,
      Stands (done ++ (blanks ++ chars)) (Text.byteSize done) next := by
  induction chars generalizing blanks with
  | nil => exact nofun
  | cons c rest ih =>
    unfold Lexeme.scanFrom
    dsimp only
    split
    case isTrue separator =>
      have more := ih (blanks_concat blank separator)
      rw [← List.append_assoc, Text.byteSize_append (done ++ blanks), List.append_assoc blanks] at more
      exact more
    case isFalse =>
      intro next member stop
      unfold ofLexemesFrom at member
      dsimp only at member
      have nonempty := step_ne_nil anyCase expecting ⟨(Lexeme.read c rest).1,
        c :: rest.take (Lexeme.read c rest).2, Text.byteSize (done ++ blanks),
        Text.byteSize (done ++ blanks) + Text.byteSize (c :: rest.take (Lexeme.read c rest).2)⟩
        (Lexeme.scanFrom (Text.byteSize (done ++ blanks) + c.utf8Size) (Lexeme.read c rest).2 rest)
      rw [List.head?_append_of_ne_nil _ nonempty] at member
      rw [startsAt_step _ _ _ _ next member]
      exact Text.trim_slice_blanks done blank (c :: rest) stop

theorem Begins.of_stands {text : List Char} {start : Nat} {token : Token}
    (begins : Begins text start token) (stands : Stands text start token) :
    Begins text token.span.start token where
  constant constant kind := by
    rw [← stands]
    exact begins.constant constant kind
  other valid kind stop := by
    rw [← stands]
    exact begins.other valid kind stop

/-- What comes after an equals sign is scanned from the text after it. -/
theorem scanned_after_equals (chars : List Char) (skip taken : Nat) {before after : List Token}
    {sign : Token} (found : ofLexemesFrom anyCase expecting skip
      (Lexeme.scanFrom (Text.byteSize done) taken chars) = before ++ sign :: after)
    (kind : sign.kind = .operator .equals) :
    ∃ scanned rest later, chars = scanned ++ rest ∧
      sign.span.stop = Text.byteSize (done ++ scanned) ∧
      after = ofLexemesFrom anyCase later 0
        (Lexeme.scanFrom (Text.byteSize (done ++ scanned)) 0 rest) := by
  induction chars generalizing done skip taken expecting before with
  | nil => simp [Lexeme.scanFrom, ofLexemesFrom] at found
  | cons c rest ih =>
    have further {skip taken : Nat} {expecting : Bool} {before : List Token}
        (found : ofLexemesFrom anyCase expecting skip
          (Lexeme.scanFrom (Text.byteSize done + c.utf8Size) taken rest) =
            before ++ sign :: after) :
        ∃ scanned remaining later, c :: rest = scanned ++ remaining ∧
          sign.span.stop = Text.byteSize (done ++ scanned) ∧
          after = ofLexemesFrom anyCase later 0
            (Lexeme.scanFrom (Text.byteSize (done ++ scanned)) 0 remaining) := by
      have size : Text.byteSize done + c.utf8Size = Text.byteSize (done ++ [c]) :=
        (Text.byteSize_append done [c]).symm
      rw [size] at found
      obtain ⟨scanned, remaining, later, rfl, stop, rest⟩ := ih skip taken found
      rw [List.append_assoc] at stop rest
      exact ⟨c :: scanned, remaining, later, rfl, stop, rest⟩
    unfold Lexeme.scanFrom at found
    dsimp only at found
    split at found
    · exact further found
    · split at found
      · exact further found
      · cases read : Lexeme.read c rest with
        | mk lexeme length =>
        rw [read] at found
        unfold ofLexemesFrom at found
        dsimp only at found
        split at found
        · exact further found
        · rcases step_cases anyCase expecting ⟨lexeme, c :: rest.take length, Text.byteSize done,
              Text.byteSize done + Text.byteSize (c :: rest.take length)⟩
              (Lexeme.scanFrom (Text.byteSize done + c.utf8Size) length rest) with
            ⟨equals, result⟩ | ⟨constant, -, result⟩ | ⟨⟨-, plain⟩, -⟩
          · rw [result] at found
            obtain rfl : lexeme = .operator .equals := equals
            obtain rfl := Lexeme.taken_of_operator read
            cases before with
            | nil =>
              obtain ⟨rfl, rfl⟩ := List.cons.inj found
              refine ⟨[c], rest, true, rfl, ?_, ?_⟩
              · exact (Text.byteSize_append done [c]).symm
              · rw [Text.byteSize_append]
                rfl
            | cons first before => exact further (List.cons.inj found).2
          · rw [result] at found
            cases before with
            | nil =>
              obtain ⟨rfl, -⟩ := List.cons.inj found
              nomatch kind
            | cons first before => exact further (List.cons.inj found).2
          · rcases List.append_eq_append_iff.mp found with ⟨more, rfl, same⟩ | ⟨more, same, rest⟩
            · exact further same
            · cases more with
              | nil => exact @further _ _ _ [] rest.symm
              | cons other more =>
                obtain ⟨rfl, -⟩ := List.cons.inj rest
                exact absurd kind (plain sign (by rw [same]; simp)).1

end Token

theorem laid_tokenize (text : List Char) (anyCase : Bool) :
    Token.Laid text (tokenize text anyCase) := by
  refine Token.laid_of_forall fun before sign after found kind next member => ?_
  obtain ⟨scanned, rest, later, rfl, -, rfl⟩ :=
    @Token.scanned_after_equals anyCase true [] text 0 0 _ _ _ found kind
  have begins := @Token.begins_scanFrom anyCase later scanned [] (List.forall_mem_nil _) rest
  have stands := @Token.stands_scanFrom anyCase later scanned [] (List.forall_mem_nil _) rest
  rw [List.append_nil] at begins stands
  exact (begins next member).of_stands (stands next member)

end CrayAssembler
