import CrayAssembler.Proofs.Text.Digits
import CrayAssembler.Proofs.Token.Places
import CrayAssembler.Source.Fields

namespace CrayAssembler

namespace Text

/-- The text with every apostrophe written twice. -/
def doubled (text : List Char) : List Char :=
  text.flatMap fun c => if c = '\'' then ['\'', '\''] else [c]

@[simp] theorem doubled_nil : doubled [] = [] :=
  rfl

@[simp] theorem doubled_quote (text : List Char) :
    doubled ('\'' :: text) = '\'' :: '\'' :: doubled text :=
  rfl

theorem doubled_other {c : Char} (other : c ≠ '\'') (text : List Char) :
    doubled (c :: text) = c :: doubled text := by
  simp [doubled, other]

end Text

namespace Fields

theorem undouble_doubled (text : List Char) : undouble (Text.doubled text) = some text := by
  induction text with
  | nil => rfl
  | cons c text ih =>
    by_cases quote : c = '\''
    · subst quote
      rw [Text.doubled_quote, undouble, ih]
      rfl
    · rw [Text.doubled_other quote, undouble, ih]
      · rfl
      · exact fun _ same _ => quote same
      · exact fun same => quote same

theorem eq_doubled_of_undouble {written text : List Char} (found : undouble written = some text) :
    written = Text.doubled text := by
  fun_induction undouble written generalizing text with
  | case1 =>
    obtain ⟨⟩ := found
    rfl
  | case2 rest ih =>
    obtain ⟨inner, before, rfl⟩ := Option.map_eq_some_iff.mp found
    rw [Text.doubled_quote, ← ih before]
  | case3 => nomatch found
  | case4 c rest double single ih =>
    obtain ⟨inner, before, rfl⟩ := Option.map_eq_some_iff.mp found
    rw [Text.doubled_other single, ← ih before]

/-- Only the text between apostrophes is read as a quoted string of it. -/
theorem unquote_eq_some {written text : List Char} :
    unquote written = some text ↔ written = '\'' :: (Text.doubled text ++ ['\'']) := by
  constructor
  · intro found
    unfold unquote at found
    split at found
    case h_1 rest =>
      split at found
      case isTrue closed =>
        have inner := eq_doubled_of_undouble found
        obtain ⟨front, rfl⟩ := List.getLast?_eq_some_iff.mp closed
        rw [List.dropLast_concat] at inner
        rw [inner]
      case isFalse => nomatch found
    case h_2 => nomatch found
  · rintro rfl
    simp [unquote, undouble_doubled]

end Fields

/-- The letter that asks for a justification. -/
def Justification.letter : Justification → Char
  | leftBlank => 'H'
  | leftZero => 'L'
  | rightZero => 'R'
  | zeroEnd => 'Z'

theorem Identifier.bodyChar_of_isDigit {c : Char} (digit : c.isDigit) : bodyChar c := by
  simp [bodyChar, Char.isAlphanum, digit]

theorem Identifier.toUpper_of_not_bodyChar {c : Char} (other : bodyChar c = false) :
    c.toUpper = c := by
  refine dif_neg fun lower => ?_
  have letter : c.isAlpha :=
    Bool.or_eq_true_iff.mpr (.inr (Bool.and_eq_true_iff.mpr
      ⟨decide_eq_true lower.1, decide_eq_true lower.2⟩))
  simp [bodyChar, Char.isAlphanum, letter] at other

theorem Justification.ofSuffix?_of_not_bodyChar {c : Char} (other : Identifier.bodyChar c = false) :
    ofSuffix? c = none := by
  unfold ofSuffix?
  rw [Identifier.toUpper_of_not_bodyChar other]
  split
  case h_5 => rfl
  all_goals exact absurd other (by decide)

namespace CharConstant

/-- How a count is written, if at all. -/
inductive WritesCount : List Char → CharCount → Prop
  | none : WritesCount [] .words
  | star : WritesCount ['*'] .exact
  | digits {digits : List Char} (some : digits ≠ []) (all : ∀ c ∈ digits, c.isDigit)
      (fits : Nat.ofDigitChars 10 digits 0 < UInt64.size) :
      WritesCount digits (.chars (Nat.ofDigitChars 10 digits 0))

/-- How a justification is asked for, by a letter of either case or by none. -/
inductive WritesJustification : List Char → Justification → Prop
  | none : WritesJustification [] default
  | upper (justification : Justification) :
      WritesJustification [justification.letter] justification
  | lower (justification : Justification) :
      WritesJustification [justification.letter.toLower] justification

/-- What follows a constant and cannot belong to it. It begins with no digit either, which is a
character of identifiers. -/
def Apart (rest : List Char) : Prop :=
  ∀ c ∈ rest.head?, c ≠ '\'' ∧ c ≠ '*' ∧ Identifier.bodyChar c = false

instance : (rest : List Char) → Decidable (Apart rest)
  | [] => isTrue nofun
  | c :: _ =>
    decidable_of_iff (c ≠ '\'' ∧ c ≠ '*' ∧ Identifier.bodyChar c = false) (by simp [Apart])

/-- A constant with the number of bytes that it takes. -/
def readSized (chars : List Char) : Option (CharConstant × Nat) :=
  (read chars).map fun (constant, rest) =>
    (constant, Text.byteSize chars - Text.byteSize rest)

variable {number letter rest : List Char} {count : CharCount} {justification : Justification}

theorem readBody_doubled (text : List Char) (single : rest.head? ≠ some '\'') :
    readBody (Text.doubled text ++ '\'' :: rest) = some (text, rest) := by
  induction text with
  | nil =>
    rw [Text.doubled_nil, List.nil_append, readBody]
    rintro more rfl
    exact single rfl
  | cons c text ih =>
    by_cases quote : c = '\''
    · subst quote
      rw [Text.doubled_quote, List.cons_append, List.cons_append, readBody, ih]
      rfl
    · rw [Text.doubled_other quote, List.cons_append, readBody, ih]
      · rfl
      · exact fun _ same _ => quote same
      · exact fun same => quote same

theorem readCount_written (written : WritesCount number count)
    (stops : ∀ c ∈ rest.head?, c ≠ '*' ∧ c.isDigit = false) :
    readCount (number ++ rest) = some (count, rest) := by
  have ended : rest.takeWhile Char.isDigit = [] := by
    cases rest with
    | nil => rfl
    | cons c rest => exact List.takeWhile_cons_of_neg (by simp [(stops c rfl).2])
  cases written with
  | none =>
    rw [List.nil_append]
    unfold readCount
    split
    case h_1 more => exact absurd rfl (stops '*' rfl).1
    case h_2 => simp [ended, Numeral.natural?]
  | star => rfl
  | digits some all fits =>
    have taken : (number ++ rest).takeWhile Char.isDigit = number := by
      rw [List.takeWhile_append_of_pos all, ended, List.append_nil]
    unfold readCount
    split
    case h_1 more same =>
      obtain ⟨first, others, rfl⟩ := List.exists_cons_of_ne_nil some
      obtain ⟨rfl, -⟩ := List.cons.inj same
      exact absurd (all '*' (List.mem_cons_self ..)) (by decide)
    case h_2 =>
      simp only [taken, Numeral.natural?_eq some all, if_pos fits, List.drop_left]

theorem readJustification_written (written : WritesJustification letter justification)
    (apart : Apart rest) : readJustification (letter ++ rest) = (justification, rest) := by
  have follows : rest.head?.any Identifier.bodyChar = false := by
    cases rest with
    | nil => rfl
    | cons c rest => exact (apart c rfl).2.2
  cases written with
  | none =>
    cases rest with
    | nil => rfl
    | cons c rest =>
      have none := Justification.ofSuffix?_of_not_bodyChar (apart c rfl).2.2
      simp only [readJustification, List.nil_append, none]
      rfl
  | upper =>
    have known : Justification.ofSuffix? justification.letter = some justification := by
      cases justification <;> rfl
    simp [readJustification, known, follows]
  | lower =>
    have known : Justification.ofSuffix? justification.letter.toLower = some justification := by
      cases justification <;> rfl
    simp [readJustification, known, follows]

/-- A written justification neither closes the text again nor goes on with the count. -/
theorem WritesJustification.stops (written : WritesJustification letter justification)
    (apart : Apart rest) {c : Char} (first : c ∈ (letter ++ rest).head?) :
    c ≠ '\'' ∧ c ≠ '*' ∧ c.isDigit = false := by
  cases written with
  | none =>
    obtain ⟨quote, star, other⟩ := apart c first
    refine ⟨quote, star, Bool.eq_false_iff.mpr fun digit => ?_⟩
    rw [Identifier.bodyChar_of_isDigit digit] at other
    nomatch other
  | upper =>
    obtain rfl : justification.letter = c := Option.some.inj first
    cases justification <;> decide
  | lower =>
    obtain rfl : justification.letter.toLower = c := Option.some.inj first
    cases justification <;> decide

theorem WritesCount.single (counted : WritesCount number count)
    (written : WritesJustification letter justification) (apart : Apart rest) :
    (number ++ (letter ++ rest)).head? ≠ some '\'' := by
  intro quote
  cases counted with
  | none => exact (written.stops apart quote).1 rfl
  | star => nomatch quote
  | digits some all fits =>
    obtain ⟨first, others, rfl⟩ := List.exists_cons_of_ne_nil some
    obtain rfl : first = '\'' := Option.some.inj quote
    exact absurd (all '\'' (List.mem_cons_self ..)) (by decide)

theorem read_written (text : List Char) (counted : WritesCount number count)
    (written : WritesJustification letter justification) (apart : Apart rest) :
    read (Text.doubled text ++ '\'' :: (number ++ letter) ++ rest) =
      some (⟨Text.bytes text, count, justification⟩, rest) := by
  have body := readBody_doubled text (counted.single written apart)
  have number := readCount_written counted fun c first => (written.stops apart first).2
  have letter := readJustification_written written apart
  simp only [List.append_assoc, List.cons_append]
  simp [read, body, number, letter]

/-- A text is read back from the form in which its apostrophes are written twice: that form between
apostrophes is the only quoted string of the text, and as a character constant, with or without a
count and a letter, it is read up to whatever cannot belong to it. -/
theorem quoted_read (text : List Char) (counted : WritesCount number count)
    (written : WritesJustification letter justification) (apart : Apart rest) :
    (∀ form, Fields.unquote form = some text ↔ form = '\'' :: (Text.doubled text ++ ['\''])) ∧
      read (Text.doubled text ++ '\'' :: (number ++ letter) ++ rest) =
        some (⟨Text.bytes text, count, justification⟩, rest) ∧
      readSized (Text.doubled text ++ '\'' :: (number ++ letter) ++ rest) =
        some (⟨Text.bytes text, count, justification⟩,
          Text.byteSize (Text.doubled text ++ '\'' :: (number ++ letter))) := by
  have whole := read_written text counted written apart
  refine ⟨fun form => Fields.unquote_eq_some, whole, ?_⟩
  simp only [readSized, whole, Option.map_some, Text.byteSize_append _ rest, Nat.add_sub_cancel]

/-- Apostrophes at both ends, letters of more than one byte, a count with a zero before it and a
letter in lower case, before a comma. -/
theorem quoted_read_sample :
    WritesCount ['0', '3'] (.chars 3) ∧ WritesJustification ['r'] .rightZero ∧ Apart [',', 'r'] ∧
      (∀ form, Fields.unquote form = some ['\'', 'é', '\''] ↔
        form = ['\'', '\'', '\'', 'é', '\'', '\'', '\'']) ∧
      read ['\'', '\'', 'é', '\'', '\'', '\'', '0', '3', 'r', ',', 'r'] =
        some (⟨[0x27, 0xC3, 0xA9, 0x27], .chars 3, .rightZero⟩, [',', 'r']) ∧
      readSized ['\'', '\'', 'é', '\'', '\'', '\'', '0', '3', 'r', ',', 'r'] =
        some (⟨[0x27, 0xC3, 0xA9, 0x27], .chars 3, .rightZero⟩, 10) := by
  have counted : WritesCount ['0', '3'] (.chars 3) :=
    .digits (by decide) (List.all_eq_true.mp rfl) (by decide)
  have written : WritesJustification ['r'] .rightZero := .lower .rightZero
  have apart : Apart [',', 'r'] := by decide
  exact ⟨counted, written, apart, quoted_read ['\'', 'é', '\''] counted written apart⟩

end CharConstant

end CrayAssembler
