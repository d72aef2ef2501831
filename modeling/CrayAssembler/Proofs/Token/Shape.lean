import CrayAssembler.Proofs.Token.Scanning

namespace CrayAssembler

/-- A character that neither divides a field nor protects what stands in it. -/
def Fields.Plain (c : Char) : Prop :=
  c ∉ ['\'', ',', '(', ')']

instance (c : Char) : Decidable (Fields.Plain c) :=
  inferInstanceAs (Decidable (c ∉ _))

theorem Fields.plain_of {p : Char → Bool} (none : ['\'', ',', '(', ')'].all fun c => !p c) {c : Char}
    (holds : p c) : Plain c := by
  intro member
  have fails := List.all_eq_true.mp none c member
  rw [holds] at fails
  nomatch fails

namespace Lexeme

open Fields

section Stops

/-- A length of plain characters that a comma limits. -/
structure Stops (length : List Char → Nat) : Prop where
  comma : ∀ front more, length (front ++ ',' :: more) = length front
  le : ∀ chars : List Char, length chars ≤ chars.length
  plain : ∀ chars : List Char, ∀ c ∈ chars.take (length chars), Plain c

variable {p : Char → Bool} {first second : List Char → Nat}

theorem takeWhile_comma (stop : p ',' = false) (front more : List Char) :
    (front ++ ',' :: more).takeWhile p = front.takeWhile p := by
  induction front with
  | nil => exact List.takeWhile_cons_of_neg (Bool.eq_false_iff.mp stop)
  | cons c front ih => rw [List.cons_append, List.takeWhile_cons, List.takeWhile_cons, ih]

theorem take_length_takeWhile (p : Char → Bool) (chars : List Char) :
    chars.take (chars.takeWhile p).length = chars.takeWhile p :=
  List.prefix_iff_eq_take.mp (List.takeWhile_prefix p) |>.symm

theorem head?_comma (stop : p ',' = false) (front more : List Char) :
    (front ++ ',' :: more).head?.any p = front.head?.any p := by
  cases front with
  | nil => exact stop
  | cons c front => rfl

theorem head?_quote {front more : List Char} :
    (front ++ ',' :: more).head? = some '\'' ↔ front.head? = some '\'' := by
  cases front with
  | nil => exact ⟨nofun, nofun⟩
  | cons => rfl

theorem stop_of (none : ['\'', ',', '(', ')'].all fun c => !p c) : p ',' = false :=
  (Bool.not_eq_true' _).mp (List.all_eq_true.mp none ',' (by decide))

theorem Stops.drop (stops : Stops first) (front more : List Char) :
    (front ++ ',' :: more).drop (first front) = front.drop (first front) ++ ',' :: more :=
  List.drop_append_of_le_length (stops.le front)

theorem Stops.takeWhile (none : ['\'', ',', '(', ')'].all fun c => !p c) :
    Stops fun chars => (chars.takeWhile p).length where
  comma front more := by
    rw [takeWhile_comma (stop_of none)]
  le chars := (List.takeWhile_prefix p).length_le
  plain chars c member := by
    rw [take_length_takeWhile] at member
    exact plain_of none (List.all_eq_true.mp List.all_takeWhile c member)

theorem Stops.head (none : ['\'', ',', '(', ')'].all fun c => !p c) :
    Stops fun chars => if chars.head?.any p then 1 else 0 where
  comma front more := by
    rw [head?_comma (stop_of none)]
  le chars := by
    cases chars with
    | nil => exact Nat.le_refl 0
    | cons c chars =>
      split
      · exact Nat.succ_le_succ (Nat.zero_le _)
      · exact Nat.zero_le _
  plain chars c member := by
    cases chars with
    | nil => nomatch member
    | cons d chars =>
      split at member
      case isTrue holds =>
        obtain rfl := List.mem_singleton.mp member
        exact plain_of none holds
      case isFalse => nomatch member

/-- One length after another. -/
theorem Stops.add (stops : Stops first) (others : Stops second) :
    Stops fun chars => first chars + second (chars.drop (first chars)) where
  comma front more := by
    rw [stops.comma, stops.drop, others.comma]
  le chars := by
    have short := stops.le chars
    have rest := others.le (chars.drop (first chars))
    rw [List.length_drop] at rest
    omega
  plain chars c member := by
    rw [List.take_add] at member
    rcases List.mem_append.mp member with member | member
    · exact stops.plain _ c member
    · exact others.plain _ c member

theorem stops_identifier : Stops fun chars => (chars.takeWhile Identifier.bodyChar).length :=
  .takeWhile (by decide)

theorem stops_hex : Stops fun chars => (chars.takeWhile isHexDigit).length :=
  .takeWhile (by decide)

theorem stops_digits : Stops fun chars => (chars.takeWhile Char.isDigit).length :=
  .takeWhile (by decide)

/-- Number of characters of an optional sign. -/
def signLength (chars : List Char) : Nat :=
  if chars.head? = some '+' || chars.head? = some '-' then 1 else 0

theorem stops_sign : Stops signLength := by
  have stops : Stops fun chars => if chars.head?.any fun c => c = '+' || c = '-' then 1 else 0 :=
    .head (by decide)
  have same : (fun chars => if chars.head?.any fun c => c = '+' || c = '-' then 1 else 0) =
      signLength := by
    funext chars
    cases chars with
    | nil => rfl
    | cons c chars => simp [signLength]
  rwa [same] at stops

/-- A marker and a length, if what follows the marker will do. -/
theorem Stops.marked (none : ['\'', ',', '(', ')'].all fun c => !p c) (stops : Stops second)
    (suits : List Char → Bool) (comma : ∀ front more, suits (front ++ ',' :: more) = suits front)
    (nil : first [] = 0)
    (cons : ∀ c rest, first (c :: rest) = if p c && suits rest then 1 + second rest else 0) :
    Stops first where
  comma front more := by
    cases front with
    | nil =>
      have stop : p ',' = false := stop_of none
      rw [List.nil_append, cons, stop, nil]
      rfl
    | cons c front => rw [List.cons_append, cons, cons, comma, stops.comma]
  le chars := by
    cases chars with
    | nil => rw [nil]; exact Nat.le_refl 0
    | cons c rest =>
      have short := stops.le rest
      rw [cons, List.length_cons]
      split
      · omega
      · exact Nat.zero_le _
  plain chars c member := by
    cases chars with
    | nil =>
      rw [List.take_nil] at member
      nomatch member
    | cons d rest =>
      rw [cons] at member
      split at member
      case isTrue holds =>
        rw [Nat.add_comm 1, List.take_succ_cons] at member
        rcases List.mem_cons.mp member with rfl | member
        · exact plain_of none (Bool.and_eq_true_iff.mp holds).1
        · exact stops.plain rest c member
      case isFalse => nomatch member

theorem stops_exponent {marker : Char}
    (none : ['\'', ',', '(', ')'].all fun c => !decide (c.toUpper = marker)) :
    Stops (exponentLength marker) := by
  refine .marked none (stops_sign.add stops_digits)
    (fun rest => ((rest.drop (signLength rest)).takeWhile Char.isDigit).length ≠ 0) ?_ rfl ?_
  · intro front more
    have digits := stops_digits.comma (front.drop (signLength front)) more
    rw [stops_sign.comma, stops_sign.drop, digits]
  · intro c rest
    have unfolded : exponentLength marker (c :: rest) =
        if c.toUpper = marker then
          if ((rest.drop (signLength rest)).takeWhile Char.isDigit).length = 0 then 0
          else 1 + signLength rest + ((rest.drop (signLength rest)).takeWhile Char.isDigit).length
        else 0 := rfl
    rw [unfolded, ← Nat.add_assoc]
    generalize ((rest.drop (signLength rest)).takeWhile Char.isDigit).length = digits
    by_cases marks : c.toUpper = marker <;> by_cases empty : digits = 0 <;> simp [marks, empty]

theorem stops_fraction : Stops fun chars =>
    match chars with
    | '.' :: rest => 1 + (rest.takeWhile Char.isDigit).length
    | _ => 0 := by
  refine .marked (p := fun c => c = '.') (by decide) stops_digits (fun _ => true) (fun _ _ => rfl) rfl ?_
  intro c rest
  by_cases point : c = '.'
  · subst point
    rfl
  · split
    case h_1 same => exact absurd (List.cons.inj same).1 point
    case h_2 => rw [decide_eq_false point]; rfl

theorem stops_numberTail : Stops numberTailLength :=
  (stops_fraction.add (stops_exponent (by decide))).add (stops_exponent (by decide))

end Stops

end Lexeme

namespace CharConstant

open Fields Lexeme

theorem readCount_comma (front more : List Char) :
    readCount (front ++ ',' :: more) = (readCount front).map (Prod.map id (· ++ ',' :: more)) := by
  by_cases star : ∃ rest, front = '*' :: rest
  · obtain ⟨rest, rfl⟩ := star
    rfl
  have count (chars : List Char) (other : ∀ rest, chars ≠ '*' :: rest) : readCount chars =
      (Numeral.natural? (chars.takeWhile Char.isDigit)).elim (some (.words, chars)) fun n =>
        if n < UInt64.size then some (.chars n, chars.drop (chars.takeWhile Char.isDigit).length)
        else none := by
    unfold readCount
    split
    case h_1 rest => exact absurd rfl (other rest)
    case h_2 =>
      dsimp only
      cases Numeral.natural? (chars.takeWhile Char.isDigit) <;> rfl
  have other : ∀ rest, front ++ ',' :: more ≠ '*' :: rest := by
    cases front with
    | nil => exact nofun
    | cons c front =>
      rintro rest same
      obtain ⟨rfl, -⟩ := List.cons.inj same
      exact star ⟨front, rfl⟩
  rw [count _ other, count _ fun rest same => star ⟨rest, same⟩, takeWhile_comma (by decide),
    stops_digits.drop]
  cases Numeral.natural? (front.takeWhile Char.isDigit) with
  | none => rfl
  | some n =>
    change (if n < UInt64.size then _ else _) = Option.map _ (if n < UInt64.size then _ else _)
    split <;> rfl

theorem readJustification_comma (front more : List Char) :
    readJustification (front ++ ',' :: more) =
      ((readJustification front).1, (readJustification front).2 ++ ',' :: more) := by
  cases front with
  | nil => rfl
  | cons c rest =>
    have stop := head?_comma (p := Identifier.bodyChar) (by decide) rest more
    unfold readJustification
    dsimp only [List.cons_append]
    rw [stop]
    split
    · rfl
    · split <;> rfl

theorem plain_of_ofSuffix? {c : Char} (known : (Justification.ofSuffix? c).isSome) : Plain c :=
  plain_of (p := fun c => (Justification.ofSuffix? c).isSome) (by decide) known

/-- A constant ends after its closing apostrophe, and before the next comma. -/
theorem read_shape {chars rest : List Char} {constant : CharConstant}
    (found : read chars = some (constant, rest)) :
    ∃ body suffix, chars = body ++ '\'' :: (suffix ++ rest) ∧ Doubled body ∧
      (∀ c ∈ suffix, Plain c) ∧ ∀ front more, rest = front ++ ',' :: more →
        read (body ++ '\'' :: (suffix ++ front)) = some (constant, front) := by
  unfold read at found
  obtain ⟨⟨inner, afterBody⟩, readInner, found⟩ := Option.bind_eq_some_iff.mp found
  obtain ⟨⟨count, afterCount⟩, readNumber, found⟩ := Option.bind_eq_some_iff.mp found
  dsimp only at found
  cases readLetter : readJustification afterCount with
  | mk justification last =>
  rw [readLetter] at found
  obtain ⟨⟩ := found
  obtain ⟨body, rfl, doubled, again⟩ := readBody_prefix readInner
  obtain ⟨number, rfl, digits, -⟩ := readCount_prefix readNumber
  obtain ⟨letter, rfl, letters, -⟩ := readJustification_taken readLetter
  refine ⟨body, number ++ letter, by rw [List.append_assoc], doubled, ?_, ?_⟩
  · refine List.forall_mem_append.mpr ⟨fun c member => ?_, fun c member => ?_⟩
    · rcases digits c member with rfl | digit
      · decide
      · exact plain_of (by decide) digit
    · exact plain_of_ofSuffix? (letters c member)
  · rintro front more rfl
    have counted := readCount_comma (number ++ (letter ++ front)) more
    have justified := readJustification_comma (letter ++ front) more
    rw [List.append_assoc, List.append_assoc, readNumber] at counted
    rw [List.append_assoc, readLetter] at justified
    obtain ⟨⟨number', after⟩, readFront, both⟩ := Option.map_eq_some_iff.mp counted.symm
    obtain ⟨rfl, remaining⟩ := Prod.mk.inj both
    rw [← List.append_assoc letter] at remaining
    obtain rfl : after = letter ++ front := List.append_cancel_right remaining
    obtain ⟨rfl, rest⟩ := Prod.mk.inj justified
    have front_eq : (readJustification (letter ++ front)).2 = front :=
      (List.append_cancel_right rest).symm
    unfold read
    rw [List.append_assoc, again (number ++ (letter ++ front)) ⟨',' :: more, by simp⟩]
    change (readCount (number ++ (letter ++ front))).bind _ = _
    rw [readFront]
    change some (CharConstant.mk _ _ (readJustification (letter ++ front)).1,
      (readJustification (letter ++ front)).2) = _
    rw [front_eq]
    rfl

end CharConstant

namespace Lexeme

open Fields CharConstant

variable {c : Char} {rest front more : List Char}

/-- The kinds of lexemes that hold plain characters only. -/
def Kind.Simple : Kind → Prop
  | .identifier | .number | .operator _ | .dot => True
  | _ => False

/-- The characters of a lexeme, whatever it is. -/
inductive Shape : Kind → List Char → Prop
  | simple {kind : Kind} {text : List Char} (simple : kind.Simple) (plain : ∀ c ∈ text, Plain c) :
      Shape kind text
  | string {letter body suffix : List Char} (constant : CharConstant) (plain : ∀ c ∈ letter, Plain c)
      (doubled : Doubled body) (last : ∀ c ∈ suffix, Plain c) :
      Shape (.string constant) (letter ++ '\'' :: (body ++ '\'' :: suffix))
  | based {letter : Char} {digits closing : List Char} (radix : Nat) (plain : Plain letter)
      (hex : ∀ c ∈ digits, Plain c) (ends : closing = [] ∨ closing = ['\'']) :
      Shape (.based radix digits) (letter :: '\'' :: (digits ++ closing))
  | leftParen : Shape .leftParen ['(']
  | rightParen : Shape .rightParen [')']
  | comma : Shape .comma [',']

section Strings

variable {justified : Option Justification} {chars : List Char}

/-- A string that is closed, and what is read when a comma follows it. -/
theorem readString_shape (known : (readString justified chars).1 ≠ .unknown) :
    ∃ constant body suffix rest, chars = body ++ '\'' :: (suffix ++ rest) ∧ Doubled body ∧
      (∀ c ∈ suffix, Plain c) ∧
      readString justified chars = (.string constant, (body ++ '\'' :: suffix).length) ∧
      ∀ front more, rest = front ++ ',' :: more →
        readString justified (body ++ '\'' :: (suffix ++ front)) =
          (.string constant, (body ++ '\'' :: suffix).length) := by
  have length (body suffix rest : List Char) :
      (body ++ '\'' :: (suffix ++ rest)).length - rest.length = (body ++ '\'' :: suffix).length := by
    simp only [List.length_append, List.length_cons]
    omega
  unfold readString at known ⊢
  cases found : CharConstant.read chars with
  | none =>
    rw [found] at known
    exact absurd rfl known
  | some result =>
    obtain ⟨constant, rest⟩ := result
    obtain ⟨body, suffix, rfl, doubled, plain, again⟩ := CharConstant.read_shape found
    refine ⟨_, body, suffix, rest, rfl, doubled, plain, Prod.ext rfl (length ..), ?_⟩
    intro front more same
    rw [again front more same]
    exact Prod.ext rfl (length ..)

theorem readString_comma (known : (readString justified (front ++ ',' :: more)).1 ≠ .unknown)
    (inside : (readString justified (front ++ ',' :: more)).2 ≤ front.length) :
    readString justified front = readString justified (front ++ ',' :: more) := by
  obtain ⟨constant, body, suffix, rest, chars, -, -, found, again⟩ := readString_shape known
  rw [found] at inside ⊢
  have divided : front ++ ',' :: more = (body ++ '\'' :: suffix) ++ rest := by
    rw [chars, List.append_assoc, List.cons_append]
  obtain ⟨other, rfl⟩ : body ++ '\'' :: suffix <+: front :=
    List.prefix_of_prefix_length_le ⟨rest, divided.symm⟩ (List.prefix_append ..) inside
  rw [List.append_assoc] at divided
  have result := again other more (List.append_cancel_left divided).symm
  rwa [List.append_assoc, List.cons_append]

end Strings

/-- What ends before a comma is read again without it. -/
theorem read_comma (known : (read c (front ++ ',' :: more)).1 ≠ .unknown)
    (inside : (read c (front ++ ',' :: more)).2 ≤ front.length) :
    read c front = read c (front ++ ',' :: more) := by
  by_cases quote : c = '\''
  · subst quote
    rw [read_quote] at known inside ⊢
    exact readString_comma known inside
  have other (closed : front.head? = some '\'' → c.toUpper ≠ 'A' ∧ radix? c = none) :
      read c front = read c (front ++ ',' :: more) := by
    rw [read_other quote closed, read_other quote fun next => closed (head?_quote.mp next),
      takeWhile_comma (by decide), takeWhile_comma (by decide), stops_digits.drop,
      stops_numberTail.comma]
  by_cases next : front.head? = some '\''
  case neg => exact other fun same => absurd same next
  obtain ⟨body, rfl⟩ := List.head?_eq_some_iff.mp next
  rw [List.cons_append] at known inside ⊢
  by_cases letter : c.toUpper = 'A'
  · rw [read_letter letter quote] at known inside ⊢
    rw [read_letter letter quote, readString_comma known ?_]
    rw [List.length_cons] at inside
    omega
  cases radix : radix? c with
  | none => exact other fun _ => ⟨letter, radix⟩
  | some base =>
    rw [read_based quote radix, read_based quote radix, takeWhile_comma (by decide), stops_hex.drop,
      if_congr head?_quote rfl rfl]

/-- A string and the letter before it, if any. -/
theorem shape_readString {justified : Option Justification} {letter chars : List Char}
    (plain : ∀ c ∈ letter, Plain c) (known : (readString justified chars).1 ≠ .unknown) :
    Shape (readString justified chars).1
      (letter ++ '\'' :: chars.take (readString justified chars).2) := by
  obtain ⟨constant, body, suffix, rest, rfl, doubled, last, found, -⟩ := readString_shape known
  have text : (body ++ '\'' :: (suffix ++ rest)).take (body ++ '\'' :: suffix).length =
      body ++ '\'' :: suffix := by
    rw [← List.cons_append, ← List.append_assoc]
    exact List.take_left
  rw [found, text]
  exact .string constant plain doubled last

theorem shape_signKind (known : signKind c ≠ .unknown) : Shape (signKind c) [c] := by
  have sign := sign_signKind c
  generalize signKind c = kind at sign known ⊢
  cases sign with
  | leftParen => exact .leftParen
  | rightParen => exact .rightParen
  | comma => exact .comma
  | dot => exact .simple trivial (List.forall_mem_singleton.mpr (by decide))
  | operator sign =>
    refine .simple trivial (List.forall_mem_singleton.mpr ?_)
    exact plain_of (p := fun c => (Operator.ofSign? c).isSome) (by decide)
      (Option.isSome_of_eq_some sign)
  | unknown => exact absurd rfl known

theorem shape_read (known : (read c rest).1 ≠ .unknown) : Shape (read c rest).1 (spelling c rest) := by
  unfold spelling
  have spelled := spelled_read c rest
  generalize read c rest = result at spelled known ⊢
  cases spelled with
  | string quote =>
    subst quote
    exact shape_readString (List.forall_mem_nil _) known
  | ascii letter same =>
    subst same
    have plain : Plain c := plain_of (p := fun c => c.toUpper = 'A') (by decide) (decide_eq_true letter)
    dsimp only
    rw [take_quote]
    exact shape_readString (List.forall_mem_singleton.mpr plain) known
  | @based radix body closed letter same =>
    subst same
    have plain : Plain c := plain_of (p := fun c => (radix? c).isSome) (by decide)
      (Option.isSome_of_eq_some letter)
    have hex : ∀ c ∈ body.takeWhile isHexDigit, Plain c := fun c member =>
      plain_of (by decide) (List.all_eq_true.mp List.all_takeWhile c member)
    dsimp only
    rw [Nat.add_assoc, take_quote, List.take_add, take_length_takeWhile]
    refine .based radix plain hex ?_
    split
    case isTrue closed =>
      obtain ⟨after, found⟩ := List.head?_eq_some_iff.mp closed
      rw [found]
      exact .inr rfl
    case isFalse => exact .inl rfl
  | identifier closed start =>
    refine .simple trivial (List.forall_mem_cons.mpr ⟨?_, stops_identifier.plain rest⟩)
    exact plain_of (by decide) start
  | number closed digit =>
    refine .simple trivial (List.forall_mem_cons.mpr ⟨?_, ?_⟩)
    · exact plain_of (by decide) digit
    · exact (stops_digits.add stops_numberTail).plain rest
  | sign => exact shape_signKind known

/-- A lexeme is found again in front of what comes before a comma. -/
theorem scanFrom_lexeme_comma (solid : ¬Separates c) (known : (read c rest).1 ≠ .unknown)
    (ends : remainder c rest = front ++ ',' :: more) (start : Nat) :
    scanFrom start 0 (spelling c rest ++ front) =
      ⟨(read c rest).1, spelling c rest, start, start + Text.byteSize (spelling c rest)⟩ ::
        scanFrom (start + Text.byteSize (spelling c rest)) 0 front := by
  have divided : rest.take (read c rest).2 ++ front ++ ',' :: more = rest := by
    rw [List.append_assoc, ← ends]
    exact List.take_append_drop ..
  have short : (read c rest).2 ≤ rest.length := by
    refine Nat.le_of_lt (Nat.lt_of_not_le fun long => ?_)
    unfold remainder at ends
    rw [List.drop_of_length_le long] at ends
    exact absurd ends.symm (by simp)
  have taken : (rest.take (read c rest).2).length = (read c rest).2 := by
    rw [List.length_take, Nat.min_eq_left short]
  have again : read c (rest.take (read c rest).2 ++ front) = read c rest := by
    have whole := @read_comma c (rest.take (read c rest).2 ++ front) more
    rw [divided, List.length_append, taken] at whole
    exact whole known (Nat.le_add_right ..)
  have text : spelling c (rest.take (read c rest).2 ++ front) = spelling c rest := by
    unfold spelling
    rw [again, List.take_append_of_le_length (Nat.le_of_eq taken.symm), List.take_take, Nat.min_self]
  have left : remainder c (rest.take (read c rest).2 ++ front) = front := by
    unfold remainder
    rw [again]
    exact List.drop_left' taken
  have scanned := scanFrom_lexeme solid start (rest.take (read c rest).2 ++ front)
  rwa [again, text, left] at scanned

end Lexeme

end CrayAssembler
