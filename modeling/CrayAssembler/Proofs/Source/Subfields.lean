import CrayAssembler.Proofs.Token.Shape
import CrayAssembler.Proofs.Token.Shifting
import CrayAssembler.Source.Fields

namespace CrayAssembler

/-- What divides an operand into groups, and what keeps a group together. -/
inductive Delimiter where
  | opening
  | closing
  | comma
deriving DecidableEq, Repr

/-- How deep in parentheses a place is after something that may be a delimiter; none after a comma
outside parentheses. A parenthesis that closes nothing is ignored. -/
def Delimiter.pass (depth : Nat) : Option Delimiter → Option Nat
  | some opening => some (depth + 1)
  | some closing => some (depth - 1)
  | some comma => if depth = 0 then none else some depth
  | none => some depth

namespace Token

def Kind.delimiter? : Kind → Option Delimiter
  | .leftParen => some .opening
  | .rightParen => some .closing
  | .comma => some .comma
  | _ => none

/-- Tokens between the commas outside parentheses; there is always at least one group. -/
def groups (depth : Nat) : List Kind → List (List Kind)
  | [] => [[]]
  | kind :: rest =>
    match Delimiter.pass depth kind.delimiter? with
    | none => [] :: groups depth rest
    | some deeper => (groups deeper rest).modifyHead (kind :: ·)

end Token

namespace Lexeme

def Kind.delimiter? : Kind → Option Delimiter
  | .leftParen => some .opening
  | .rightParen => some .closing
  | .comma => some .comma
  | _ => none

/-- Whether the lexeme is a constant without its closing apostrophe. -/
def leftOpen (lexeme : Lexeme) : Bool :=
  match lexeme.kind with
  | .based _ digits => lexeme.text.length = digits.length + 2
  | _ => false

end Lexeme

/-- A character that divides, or keeps together, where it is not quoted. -/
def Fields.delimits (c : Char) : Bool :=
  c = ',' || c = '(' || c = ')'

/-- As long as a comma is still to come, no comma and no parenthesis stands in a lexeme while an odd
number of constants before it are left open; `opened` tells whether the number is odd at the start. -/
def Lexeme.settled (opened : Bool) : List Lexeme → Bool
  | [] => true
  | lexeme :: rest =>
    (lexeme :: rest).all (fun later => !later.text.contains ',') ||
      !(opened && lexeme.text.any Fields.delimits) && settled (opened ^^ lexeme.leftOpen) rest

namespace Fields

section Walks

variable {before between after : Nesting} {c : Char} {first second rest text : List Char}

theorem splitFrom_ne_nil (nesting : Nesting) (chars : List Char) : splitFrom nesting chars ≠ [] := by
  cases chars with
  | nil => exact List.cons_ne_nil _ _
  | cons c rest =>
    unfold splitFrom
    split
    · exact List.cons_ne_nil _ _
    · split <;> exact List.cons_ne_nil _ _

theorem splitFrom_comma (rest : List Char) :
    splitFrom .outside (',' :: rest) = [] :: splitFrom .outside rest :=
  rfl

theorem splitFrom_cons (held : c = ',' → before.isOutside = false) (rest : List Char) :
    splitFrom before (c :: rest) = (splitFrom (before.after c) rest).modifyHead (c :: ·) := by
  have other : ¬(decide (c = ',') && before.isOutside) = true := by
    rw [Bool.and_eq_true, decide_eq_true_eq]
    rintro ⟨comma, outside⟩
    rw [held comma] at outside
    nomatch outside
  rw [splitFrom, if_neg other]
  cases pieces : splitFrom (before.after c) rest with
  | nil => exact absurd pieces (splitFrom_ne_nil _ _)
  | cons piece more => rfl

theorem splitFrom_of_not_mem (none : ',' ∉ text) (nesting : Nesting) :
    splitFrom nesting text = [text] := by
  induction text generalizing nesting with
  | nil => rfl
  | cons c text ih =>
    obtain ⟨other, none⟩ := List.ne_and_not_mem_of_not_mem_cons none
    rw [splitFrom_cons fun comma => absurd comma.symm other, ih none]
    rfl

/-- The text belongs to one subfield, in which the nesting changes from `before` to `after`. -/
def Walks (before : Nesting) (text : List Char) (after : Nesting) : Prop :=
  ∀ rest, splitFrom before (text ++ rest) = (splitFrom after rest).modifyHead (text ++ ·)

theorem walks_nil (nesting : Nesting) : Walks nesting [] nesting := by
  intro rest
  exact (congrFun List.modifyHead_id _).symm

theorem Walks.cons (held : c = ',' → before.isOutside = false)
    (walks : Walks (before.after c) text after) : Walks before (c :: text) after := by
  intro rest
  rw [List.cons_append, splitFrom_cons held, walks, List.modifyHead_modifyHead]
  rfl

theorem Walks.append (walks : Walks before first between) (further : Walks between second after) :
    Walks before (first ++ second) after := by
  intro rest
  rw [List.append_assoc, walks, further, List.modifyHead_modifyHead]
  congr 1
  funext piece
  exact (List.append_assoc ..).symm

/-- Whether the number of apostrophes is odd. -/
def uneven : List Char → Bool
  | [] => false
  | c :: rest => decide (c = '\'') ^^ uneven rest

theorem uneven_append (first second : List Char) :
    uneven (first ++ second) = (uneven first ^^ uneven second) := by
  induction first with
  | nil => exact (Bool.false_xor _).symm
  | cons c first ih => rw [List.cons_append, uneven, uneven, ih, Bool.xor_assoc]

theorem uneven_of_plain (plain : ∀ c ∈ text, Plain c) : uneven text = false := by
  induction text with
  | nil => rfl
  | cons c text ih =>
    obtain ⟨first, others⟩ := List.forall_mem_cons.mp plain
    have other : c ≠ '\'' := by
      rintro rfl
      exact first (by decide)
    rw [uneven, ih others, decide_eq_false other]
    rfl

theorem uneven_of_doubled (doubled : CharConstant.Doubled text) : uneven text = false := by
  induction doubled with
  | nil => rfl
  | quote doubled ih => rw [uneven, uneven, ih]; rfl
  | char other doubled ih => rw [uneven, ih, decide_eq_false other]; rfl

theorem undelimited_of_plain (plain : ∀ c ∈ text, Plain c) : text.any delimits = false := by
  refine List.any_eq_false.mpr fun c member => ?_
  have plain := plain c member
  simp only [Plain, List.mem_cons, not_or] at plain
  simp [delimits, plain]

theorem walks_undelimited (none : text.any delimits = false) (quoted : Bool) (depth : Nat) :
    Walks ⟨quoted, depth⟩ text ⟨quoted ^^ uneven text, depth⟩ := by
  induction text generalizing quoted with
  | nil =>
    rw [uneven, Bool.xor_false]
    exact walks_nil _
  | cons c text ih =>
    obtain ⟨first, others⟩ := Bool.or_eq_false_iff.mp none
    simp only [delimits, Bool.or_eq_false_iff, decide_eq_false_iff_not] at first
    have after : Nesting.after ⟨quoted, depth⟩ c = ⟨quoted ^^ decide (c = '\''), depth⟩ := by
      unfold Nesting.after
      by_cases quote : c = '\''
      · simp [quote]
      · cases quoted <;> simp [quote, first]
    refine .cons (fun comma => absurd comma first.1.1) ?_
    rw [after, uneven, ← Bool.xor_assoc]
    exact ih others _

theorem walks_plain (plain : ∀ c ∈ text, Plain c) (nesting : Nesting) : Walks nesting text nesting := by
  have walks := walks_undelimited (undelimited_of_plain plain) nesting.quoted nesting.depth
  rwa [uneven_of_plain plain, Bool.xor_false] at walks

theorem after_quoted (other : c ≠ '\'') (depth : Nat) :
    Nesting.after ⟨true, depth⟩ c = ⟨true, depth⟩ := by
  simp [Nesting.after, other]

/-- Nothing inside a string counts. -/
theorem walks_doubled (doubled : CharConstant.Doubled text) (depth : Nat) :
    Walks ⟨true, depth⟩ text ⟨true, depth⟩ := by
  induction doubled with
  | nil => exact walks_nil _
  | quote doubled ih => exact .cons nofun (.cons nofun ih)
  | char other doubled ih => exact .cons (fun _ => rfl) ((after_quoted other depth).symm ▸ ih)

end Walks

end Fields

namespace Lexeme

open Fields

theorem delimiter?_of_simple {kind : Kind} (simple : kind.Simple) : kind.delimiter? = none := by
  cases kind <;> first | rfl | exact simple.elim

theorem uneven_shape {lexeme : Lexeme} (shape : Shape lexeme.kind lexeme.text) :
    uneven lexeme.text = lexeme.leftOpen := by
  obtain ⟨kind, text, span⟩ := lexeme
  dsimp only at shape
  cases shape with
  | simple simple plain =>
    rw [uneven_of_plain plain]
    cases kind <;> first | rfl | exact simple.elim
  | @string letter body suffix constant plain doubled last =>
    dsimp only
    rw [uneven_append, uneven_of_plain plain, uneven, uneven_append, uneven_of_doubled doubled, uneven,
      uneven_of_plain last]
    rfl
  | @based letter digits closing radix plain hex ends =>
    have other : letter ≠ '\'' := by
      rintro rfl
      exact plain (by decide)
    dsimp only [leftOpen]
    rw [uneven, uneven, uneven_append, uneven_of_plain hex, decide_eq_false other]
    rcases ends with rfl | rfl <;> simp [uneven]
  | leftParen => rfl
  | rightParen => rfl
  | comma => rfl

theorem eq_comma_of_shape {kind : Kind} {text : List Char} (shape : Shape kind text)
    (comma : kind.delimiter? = some .comma) : kind = .comma ∧ text = [','] := by
  cases shape with
  | simple simple plain => nomatch (delimiter?_of_simple simple).symm.trans comma
  | comma => exact ⟨rfl, rfl⟩
  | _ => nomatch comma

/-- The walk over a lexeme that ends no subfield. -/
theorem walks_shape {lexeme : Lexeme} (shape : Shape lexeme.kind lexeme.text) {opened : Bool}
    {depth deeper : Nat} (settled : opened = true → lexeme.text.any delimits = false)
    (passes : Delimiter.pass depth lexeme.kind.delimiter? = some deeper) :
    Walks ⟨opened, depth⟩ lexeme.text ⟨opened ^^ lexeme.leftOpen, deeper⟩ := by
  have same := uneven_shape shape
  -- A lexeme without delimiters is walked character by character.
  have undelimited (none : lexeme.text.any delimits = false)
      (kind : lexeme.kind.delimiter? = .none) :
      Walks ⟨opened, depth⟩ lexeme.text ⟨opened ^^ lexeme.leftOpen, deeper⟩ := by
    rw [kind] at passes
    obtain rfl : depth = deeper := Option.some.inj passes
    rw [← same]
    exact walks_undelimited none opened depth
  obtain ⟨kind, text, span⟩ := lexeme
  dsimp only at shape settled passes same undelimited ⊢
  cases shape with
  | simple simple plain =>
    exact undelimited (undelimited_of_plain plain) (delimiter?_of_simple simple)
  | @string letter body suffix constant plain doubled last =>
    cases opened with
    | true => exact undelimited (settled rfl) rfl
    | false =>
      obtain rfl : depth = deeper := Option.some.inj passes
      have after := walks_plain last ⟨false, depth⟩
      exact (walks_plain plain _).append
        (.cons nofun ((walks_doubled doubled depth).append (.cons nofun after)))
  | @based letter digits closing radix plain hex ends =>
    refine undelimited ?_ rfl
    have closes : closing.any delimits = false := by
      rcases ends with rfl | rfl <;> rfl
    have first : delimits letter = false := by
      simpa using undelimited_of_plain (List.forall_mem_singleton.mpr plain)
    rw [List.any_cons, List.any_cons, List.any_append, first, undelimited_of_plain hex, closes]
    rfl
  | leftParen =>
    cases opened with
    | true => nomatch settled rfl
    | false =>
      obtain rfl : depth + 1 = deeper := Option.some.inj passes
      exact .cons nofun (walks_nil _)
  | rightParen =>
    cases opened with
    | true => nomatch settled rfl
    | false =>
      obtain rfl : depth - 1 = deeper := Option.some.inj passes
      exact .cons nofun (walks_nil _)
  | comma =>
    cases opened with
    | true => nomatch settled rfl
    | false =>
      change (if depth = 0 then none else some depth) = some deeper at passes
      by_cases zero : depth = 0
      · rw [if_pos zero] at passes
        nomatch passes
      · rw [if_neg zero] at passes
        obtain rfl : depth = deeper := Option.some.inj passes
        exact .cons (fun _ => decide_eq_false zero) (walks_nil _)

end Lexeme

namespace Delimiter

/-- How deep a place is after several things, with no comma outside parentheses among them. -/
def passes (depth : Nat) (delimiters : List (Option Delimiter)) : Option Nat :=
  delimiters.foldlM pass depth

theorem passes_append {depth : Nat} (first second : List (Option Delimiter)) :
    passes depth (first ++ second) = (passes depth first).bind fun deeper => passes deeper second :=
  List.foldlM_append

theorem eq_comma_of_pass {depth : Nat} {delimiter : Option Delimiter}
    (ends : pass depth delimiter = none) : delimiter = some comma ∧ depth = 0 := by
  unfold pass at ends
  split at ends
  · nomatch ends
  · nomatch ends
  · split at ends
    case isTrue zero => exact ⟨rfl, zero⟩
    case isFalse => nomatch ends
  · nomatch ends

theorem passes_of_none {delimiters : List (Option Delimiter)} (none : ∀ d ∈ delimiters, d = .none)
    (depth : Nat) : passes depth delimiters = some depth := by
  induction delimiters with
  | nil => rfl
  | cons delimiter delimiters ih =>
    obtain ⟨rfl, others⟩ := List.forall_mem_cons.mp none
    exact ih others

theorem passes_of_ne_comma {delimiters : List (Option Delimiter)}
    (other : ∀ d ∈ delimiters, d ≠ some comma) (depth : Nat) :
    ∃ deeper, passes depth delimiters = some deeper := by
  induction delimiters generalizing depth with
  | nil => exact ⟨depth, rfl⟩
  | cons delimiter delimiters ih =>
    obtain ⟨first, others⟩ := List.forall_mem_cons.mp other
    cases passed : pass depth delimiter with
    | none => exact absurd (eq_comma_of_pass passed).1 first
    | some next =>
      obtain ⟨deeper, run⟩ := ih others next
      exact ⟨deeper, Option.bind_eq_some_iff.mpr ⟨next, passed, run⟩⟩

end Delimiter

namespace Token

open Delimiter

variable {anyCase : Bool} {lexeme : Lexeme} {rest : List Lexeme} {step : Step}

theorem delimiter?_of_leads {kind : Lexeme.Kind} (leads : kind.Leads) : kind.delimiter? = none := by
  cases kind <;> first | rfl | exact leads.elim

theorem delimiter?_of_follows {kind : Lexeme.Kind} (follows : kind.Follows) :
    kind.delimiter? = none := by
  cases kind <;> first | rfl | exact follows.elim

theorem delimiter?_of_compound {kind : Kind} (compound : kind.Compound) : kind.delimiter? = none := by
  cases kind <;> first | rfl | exact compound.elim

/-- The tokens of a step divide as the lexemes do that it takes. -/
theorem passes_reads (reads : Reads anyCase lexeme rest step) (depth : Nat) :
    passes depth (step.tokens.map (·.kind.delimiter?)) =
      passes depth ((lexeme :: rest.take step.taken).map (·.kind.delimiter?)) := by
  have follows := reads.follows
  -- Lexemes that form a token with others are no delimiters, nor is the token.
  have compound (leads : lexeme.kind.Leads)
      (plain : ∀ token ∈ step.tokens, token.kind.delimiter? = none) :
      passes depth (step.tokens.map (·.kind.delimiter?)) =
        passes depth ((lexeme :: rest.take step.taken).map (·.kind.delimiter?)) := by
    have lexemes : ∀ next ∈ lexeme :: rest.take step.taken, next.kind.delimiter? = none :=
      List.forall_mem_cons.mpr ⟨delimiter?_of_leads leads, fun next member =>
        delimiter?_of_follows (follows next member)⟩
    rw [passes_of_none (List.forall_mem_map.mpr plain),
      passes_of_none (List.forall_mem_map.mpr lexemes)]
  cases reads with
  | @alone kind rest alone =>
    have same : kind.delimiter? = lexeme.kind.delimiter? := by
      generalize lexeme.kind = single at alone
      cases alone <;> rfl
    change passes depth [kind.delimiter?] = passes depth [lexeme.kind.delimiter?]
    rw [same]
  | wide rest leads => exact compound leads (List.forall_mem_singleton.mpr rfl)
  | joined rest leads chain follows kind =>
    exact compound leads (List.forall_mem_singleton.mpr (delimiter?_of_compound kind))
  | divided rest leads =>
    exact compound leads (List.forall_mem_cons.mpr ⟨rfl, List.forall_mem_singleton.mpr rfl⟩)

theorem passes_ofLexemesFrom (lexemes : List Lexeme) (expecting : Bool) (skip depth : Nat) :
    passes depth ((ofLexemesFrom anyCase expecting skip lexemes).map (·.kind.delimiter?)) =
      passes depth ((lexemes.drop skip).map (·.kind.delimiter?)) := by
  induction lexemes generalizing expecting skip depth with
  | nil => rw [List.drop_nil]; rfl
  | cons lexeme rest ih =>
    cases skip with
    | succ more => exact ih expecting more depth
    | zero =>
      have reads := reads_step anyCase expecting lexeme rest
      rw [ofLexemesFrom, List.drop_zero]
      generalize Token.step anyCase expecting lexeme rest = step at reads ⊢
      rw [List.map_append, passes_append, passes_reads reads]
      simp only [ih]
      rw [← passes_append, ← List.map_append, List.cons_append, List.take_append_drop]

/-- What is no error comes from lexemes that are known. -/
theorem known_reads (reads : Reads anyCase lexeme rest step)
    (valid : ∀ token ∈ step.tokens, token.isError = false) :
    ∀ next ∈ lexeme :: rest.take step.taken, next.kind ≠ .unknown := by
  have follows := reads.follows
  refine List.forall_mem_cons.mpr ⟨fun unknown => ?_, fun next member unknown => ?_⟩
  · cases reads with
    | alone rest alone =>
      have valid := valid _ (List.mem_singleton.mpr rfl)
      rw [unknown] at alone
      cases alone
      nomatch valid
    | wide rest leads | joined rest leads | divided rest leads =>
      rw [unknown] at leads
      exact leads
  · have follows := follows next member
    rw [unknown] at follows
    exact follows

theorem known_of_ofLexemesFrom {lexemes : List Lexeme} {expecting : Bool} {skip : Nat}
    (valid : ∀ token ∈ ofLexemesFrom anyCase expecting skip lexemes, token.isError = false) :
    ∀ lexeme ∈ lexemes.drop skip, lexeme.kind ≠ .unknown := by
  induction lexemes generalizing expecting skip with
  | nil =>
    rw [List.drop_nil]
    exact List.forall_mem_nil _
  | cons lexeme rest ih =>
    cases skip with
    | succ more => exact ih valid
    | zero =>
      obtain ⟨now, later⟩ := List.forall_mem_append.mp valid
      have known := known_reads (reads_step anyCase expecting lexeme rest) now
      have others := ih later
      have all := List.forall_mem_append.mpr ⟨known, others⟩
      rwa [List.cons_append, List.take_append_drop] at all

/-- A group goes on as long as there is no comma outside parentheses. -/
theorem groups_append {kinds : List Kind} {depth deeper : Nat}
    (run : passes depth (kinds.map Kind.delimiter?) = some deeper) (more : List Kind) :
    groups depth (kinds ++ more) = (groups deeper more).modifyHead (kinds ++ ·) := by
  induction kinds generalizing depth with
  | nil =>
    obtain rfl : depth = deeper := Option.some.inj run
    exact (congrFun List.modifyHead_id _).symm
  | cons kind kinds ih =>
    obtain ⟨next, found, run⟩ := Option.bind_eq_some_iff.mp run
    rw [List.cons_append, groups, found]
    dsimp only
    rw [ih run, List.modifyHead_modifyHead]
    rfl

theorem groups_comma (more : List Kind) : groups 0 (.comma :: more) = [] :: groups 0 more :=
  rfl

end Token

namespace Lexeme

open Fields Delimiter

/-- Lexemes that are known, with no comma or parenthesis while a constant is left open. -/
structure Regular (opened : Bool) (lexemes : List Lexeme) : Prop where
  settled : settled opened lexemes
  known : ∀ lexeme ∈ lexemes, lexeme.kind ≠ .unknown

theorem settled_cons {opened : Bool} {lexeme : Lexeme} {rest : List Lexeme}
    (settled : Lexeme.settled opened (lexeme :: rest))
    (comma : ¬∀ later ∈ lexeme :: rest, ',' ∉ later.text) :
    (opened = true → lexeme.text.any delimits = false) ∧
      Lexeme.settled (opened ^^ lexeme.leftOpen) rest := by
  have some : ¬((lexeme :: rest).all fun later => !later.text.contains ',') = true := by
    intro all
    refine comma fun later member => ?_
    simpa using List.all_eq_true.mp all later member
  obtain ⟨quiet, settled⟩ := Bool.and_eq_true_iff.mp
    ((Bool.or_eq_true_iff.mp settled).resolve_left some)
  refine ⟨fun isOpen => ?_, settled⟩
  rw [isOpen, Bool.true_and] at quiet
  exact (Bool.not_eq_true' _).mp quiet

/-- Where the first subfield of a text ends, and its lexemes. -/
inductive Splits (start : Nat) (nesting : Nesting) : List Char → Prop
  | whole {chars : List Char} {deeper : Nat} (pieces : splitFrom nesting chars = [chars])
      (run : passes nesting.depth ((scanFrom start 0 chars).map (·.kind.delimiter?)) = some deeper) :
      Splits start nesting chars
  | cut {front more : List Char} {comma : Lexeme} {stop : Nat}
      (pieces : splitFrom nesting (front ++ ',' :: more) = front :: splitFrom .outside more)
      (run : passes nesting.depth ((scanFrom start 0 front).map (·.kind.delimiter?)) = some 0)
      (kind : comma.kind = .comma)
      (lexemes : scanFrom start 0 (front ++ ',' :: more) =
        scanFrom start 0 front ++ comma :: scanFrom stop 0 more)
      (regular : Regular false (scanFrom stop 0 more)) : Splits start nesting (front ++ ',' :: more)

variable {start stop : Nat} {before after : Nesting} {text rest : List Char} {lexemes : List Lexeme}

/-- Lexemes that end no subfield belong to the first one. -/
theorem Splits.prepend (splits : Splits stop after rest) (walks : Walks before text after)
    (passed : passes before.depth (lexemes.map (·.kind.delimiter?)) = some after.depth)
    (scanned : ∀ front, front = rest ∨ (∃ more, rest = front ++ ',' :: more) →
      scanFrom start 0 (text ++ front) = lexemes ++ scanFrom stop 0 front) :
    Splits start before (text ++ rest) := by
  have passes_scanned {front : List Char} {deeper : Nat}
      (scanned : scanFrom start 0 (text ++ front) = lexemes ++ scanFrom stop 0 front)
      (run : passes after.depth ((scanFrom stop 0 front).map (·.kind.delimiter?)) = some deeper) :
      passes before.depth ((scanFrom start 0 (text ++ front)).map (·.kind.delimiter?)) =
        some deeper := by
    rw [scanned, List.map_append, passes_append, passed]
    exact run
  have whole := scanned rest (.inl rfl)
  cases splits with
  | whole pieces run => exact .whole (by rw [walks, pieces]; rfl) (passes_scanned whole run)
  | @cut front more comma _ pieces run kind lexemes regular =>
    have part := scanned front (.inr ⟨more, rfl⟩)
    have pieces : splitFrom before (text ++ front ++ ',' :: more) =
        (text ++ front) :: splitFrom .outside more := by
      rw [List.append_assoc, walks, pieces]
      rfl
    rw [← List.append_assoc] at whole ⊢
    refine .cut pieces (passes_scanned part run) kind ?_ regular
    rw [whole, lexemes, part, List.append_assoc]

/-- A comma of a text belongs to a lexeme. -/
theorem not_mem_of_texts {chars : List Char}
    (none : ∀ lexeme ∈ scanFrom start 0 chars, ',' ∉ lexeme.text) : ',' ∉ chars := by
  induction chars using scan_induction generalizing start with
  | nil => exact List.not_mem_nil
  | separator c rest separates ih =>
    rw [scanFrom_separator separates] at none
    refine List.not_mem_cons_of_ne_of_not_mem ?_ (ih none)
    rcases separates with rfl | rfl <;> decide
  | lexeme c rest solid ih =>
    rw [scanFrom_lexeme solid] at none
    obtain ⟨first, others⟩ := List.forall_mem_cons.mp none
    rw [← spelling_append_remainder c rest]
    exact fun member => (List.mem_append.mp member).elim first (ih others)

theorem ne_comma_of_not_mem {chars : List Char} (none : ',' ∉ chars) :
    ∀ lexeme ∈ scanFrom start 0 chars, lexeme.kind.delimiter? ≠ some .comma := by
  induction chars using scan_induction generalizing start with
  | nil => exact List.forall_mem_nil _
  | separator c rest separates ih =>
    rw [scanFrom_separator separates]
    exact ih (List.not_mem_of_not_mem_cons none)
  | lexeme c rest solid ih =>
    rw [scanFrom_lexeme solid]
    rw [← spelling_append_remainder c rest, List.mem_append, not_or] at none
    refine List.forall_mem_cons.mpr ⟨fun delimiter => none.1 ?_, ih none.2⟩
    have known : (read c rest).1 ≠ .unknown := by
      intro unknown
      dsimp only at delimiter
      rw [unknown] at delimiter
      nomatch delimiter
    rw [(eq_comma_of_shape (shape_read known) delimiter).2]
    exact List.mem_singleton.mpr rfl

/-- A text without commas is one subfield, whatever is quoted in it. -/
theorem splits_of_not_mem {chars : List Char} (none : ',' ∉ chars) (start : Nat) (nesting : Nesting) :
    Splits start nesting chars := by
  have others : ∀ d ∈ (scanFrom start 0 chars).map (·.kind.delimiter?), d ≠ some .comma :=
    List.forall_mem_map.mpr (ne_comma_of_not_mem none)
  obtain ⟨deeper, run⟩ := passes_of_ne_comma others nesting.depth
  exact .whole (splitFrom_of_not_mem none nesting) run

/-- A lexeme belongs to the first subfield, or is the comma that ends it. -/
theorem splits_lexeme {lexeme : Lexeme} {nesting : Nesting} (shape : Shape lexeme.kind lexeme.text)
    (quiet : nesting.quoted = true → lexeme.text.any delimits = false)
    (scanned : ∀ front, front = rest ∨ (∃ more, rest = front ++ ',' :: more) →
      scanFrom start 0 (lexeme.text ++ front) = [lexeme] ++ scanFrom stop 0 front)
    (regular : Regular (nesting.quoted ^^ lexeme.leftOpen) (scanFrom stop 0 rest))
    (splits : ∀ nesting, Regular nesting.quoted (scanFrom stop 0 rest) → Splits stop nesting rest) :
    Splits start nesting (lexeme.text ++ rest) := by
  cases passed : Delimiter.pass nesting.depth lexeme.kind.delimiter? with
  | some deeper =>
    have walks := walks_shape shape quiet passed
    have run : passes nesting.depth [lexeme.kind.delimiter?] = some deeper := by
      change (Delimiter.pass nesting.depth lexeme.kind.delimiter?).bind some = _
      rw [passed]
      rfl
    exact @Splits.prepend _ _ _ _ _ _ [lexeme] (splits _ regular) walks run scanned
  | none =>
    obtain ⟨delimiter, level⟩ := eq_comma_of_pass passed
    obtain ⟨comma, sign⟩ := eq_comma_of_shape shape delimiter
    -- A comma that is quoted here would be one while a constant is left open.
    have unquoted : nesting.quoted = false := by
      rw [sign] at quiet
      exact Bool.eq_false_iff.mpr fun quoted => nomatch quiet quoted
    have outside : nesting = .outside := by
      cases nesting
      exact congrArg₂ Nesting.mk unquoted level
    have closed : lexeme.leftOpen = false := by
      rw [leftOpen, comma]
    have whole := scanned rest (.inl rfl)
    rw [closed, unquoted] at regular
    rw [sign] at whole ⊢
    rw [outside]
    exact @Splits.cut _ _ [] _ lexeme _ (splitFrom_comma _) rfl comma whole regular

theorem splits_scanFrom (chars : List Char) (start : Nat) (nesting : Nesting)
    (regular : Regular nesting.quoted (scanFrom start 0 chars)) : Splits start nesting chars := by
  induction chars using scan_induction generalizing start nesting with
  | nil => exact .whole rfl rfl
  | separator c rest separates ih =>
    have plain : Plain c := by rcases separates with rfl | rfl <;> decide
    rw [scanFrom_separator separates] at regular
    exact @Splits.prepend _ _ nesting nesting [c] rest [] (ih _ _ regular)
      (walks_plain (List.forall_mem_singleton.mpr plain) nesting) rfl
      fun front _ => scanFrom_separator separates start front
  | lexeme c rest solid ih =>
    obtain ⟨settled, known⟩ := regular
    by_cases none : ∀ lexeme ∈ scanFrom start 0 (c :: rest), ',' ∉ lexeme.text
    · exact splits_of_not_mem (not_mem_of_texts none) start nesting
    have scanned := scanFrom_lexeme solid start rest
    rw [scanned] at settled known none
    obtain ⟨first, known⟩ := List.forall_mem_cons.mp known
    obtain ⟨quiet, settled⟩ := settled_cons settled none
    rw [← spelling_append_remainder c rest] at scanned ⊢
    refine @splits_lexeme start _ _ ⟨_, _, start, _⟩ nesting (shape_read first) quiet ?_
      ⟨settled, known⟩ (ih _)
    rintro front (rfl | ⟨more, ends⟩)
    · exact scanned
    · exact scanFrom_lexeme_comma solid first ends start

end Lexeme

namespace Token

open Fields Delimiter

variable {anyCase : Bool} {start stop : Nat} {text front more : List Char}

/-- The kinds of tokens do not depend on where a text stands. -/
theorem kinds_scanFrom (start : Nat) (text : List Char) (anyCase : Bool) :
    (ofLexemesFrom anyCase true 0 (Lexeme.scanFrom start 0 text)).map (·.kind) =
      (tokenize text anyCase).map (·.kind) := by
  have nothing : Ended [] := nofun
  obtain ⟨later, found⟩ := @kinds_ofLexemesFrom anyCase [] nothing start (Lexeme.scan text) true 0
    (Nat.zero_le _)
  rw [List.append_nil, Lexeme.scan, ← Lexeme.scanFrom_shift, Nat.add_zero] at found
  exact found.trans (List.append_nil _)

theorem passes_tokenize (depth start : Nat) (text : List Char) (anyCase : Bool) :
    passes depth (((tokenize text anyCase).map (·.kind)).map Kind.delimiter?) =
      passes depth ((Lexeme.scanFrom start 0 text).map (·.kind.delimiter?)) := by
  rw [← kinds_scanFrom start, List.map_map]
  exact passes_ofLexemesFrom _ _ 0 depth

/-- The tokens before a comma and those after it are what both parts give by themselves. -/
theorem kinds_cut {comma : Lexeme} (kind : comma.kind = .comma)
    (lexemes : Lexeme.scanFrom start 0 text =
      Lexeme.scanFrom start 0 front ++ comma :: Lexeme.scanFrom stop 0 more) :
    (tokenize text anyCase).map (·.kind) =
      (tokenize front anyCase).map (·.kind) ++ .comma :: (tokenize more anyCase).map (·.kind) := by
  have ended : Ended (comma :: Lexeme.scanFrom stop 0 more) := by
    rintro _ ⟨⟩
    exact kind
  obtain ⟨later, found⟩ := @kinds_ofLexemesFrom anyCase _ ended start (Lexeme.scan front) true 0
    (Nat.zero_le _)
  rw [Lexeme.scan, ← Lexeme.scanFrom_shift, Nat.add_zero, ← lexemes,
    kinds_scanFrom start, ofLexemesFrom_comma kind, List.map_cons, kinds_scanFrom stop] at found
  exact found

theorem groups_tokenize (regular : Lexeme.Regular false (Lexeme.scanFrom start 0 text)) :
    (splitFrom .outside text).map (fun piece => (tokenize piece anyCase).map (·.kind)) =
      groups 0 ((tokenize text anyCase).map (·.kind)) := by
  generalize length : text.length = n
  induction n using Nat.strongRecOn generalizing text start with
  | ind n ih =>
    cases Lexeme.splits_scanFrom text start .outside regular with
    | whole pieces run =>
      have whole := groups_append ((passes_tokenize 0 start text anyCase).trans run) []
      rw [List.append_nil] at whole
      rw [pieces, whole]
      simp [groups]
    | @cut front more comma stop pieces run kind lexemes further =>
      have shorter : more.length < n := by
        rw [← length, List.length_append, List.length_cons]
        omega
      have first := groups_append ((passes_tokenize 0 start front anyCase).trans run)
      rw [pieces, List.map_cons, ih _ shorter further rfl, kinds_cut kind lexemes, first, groups_comma]
      simp

end Token

/-- The subfields of an operand, divided into tokens one by one, give the groups of its tokens between
the commas outside parentheses, if none of its tokens is an error and, as long as a comma is to come, no
comma or parenthesis stands in a lexeme while an odd number of constants are left open. -/
theorem tokenize_splitSubfields {text : List Char} {anyCase : Bool} (some : text ≠ [])
    (valid : ∀ token ∈ tokenize text anyCase, token.isError = false)
    (settled : Lexeme.settled false (Lexeme.scan text)) :
    (Fields.splitSubfields text).map (fun piece => (tokenize piece anyCase).map (·.kind)) =
      Token.groups 0 ((tokenize text anyCase).map (·.kind)) := by
  have known := Token.known_of_ofLexemesFrom valid
  rw [Fields.splitSubfields, if_neg (by rwa [List.isEmpty_iff])]
  exact Token.groups_tokenize ⟨settled, known⟩

theorem tokenize_splitSubfields_sample :
    "A,'x,y'L,(1,2),X'1F'+(O'17)".toList ≠ [] ∧
      (∀ token ∈ tokenize "A,'x,y'L,(1,2),X'1F'+(O'17)".toList false, token.isError = false) ∧
      Lexeme.settled false (Lexeme.scan "A,'x,y'L,(1,2),X'1F'+(O'17)".toList) ∧
      (Fields.splitSubfields "A,'x,y'L,(1,2),X'1F'+(O'17)".toList).map
          (fun piece => (tokenize piece false).map (·.kind)) =
        Token.groups 0 ((tokenize "A,'x,y'L,(1,2),X'1F'+(O'17)".toList false).map (·.kind)) := by
  have valid : ∀ token ∈ tokenize "A,'x,y'L,(1,2),X'1F'+(O'17)".toList false,
      token.isError = false := by decide +kernel
  have settled : Lexeme.settled false (Lexeme.scan "A,'x,y'L,(1,2),X'1F'+(O'17)".toList) := by
    decide +kernel
  exact ⟨by decide, valid, settled, tokenize_splitSubfields (by decide) valid settled⟩

/-- A constant that is left open quotes what follows it, up to the next apostrophe: the comma between two
of them is a token, and divides no subfields. -/
theorem splitSubfields_leftOpen :
    (∀ token ∈ tokenize "O'17,O'20".toList false, token.isError = false ∧ token.kind ≠ .leftParen ∧
        token.kind ≠ .rightParen) ∧
      (Fields.splitSubfields "O'17,O'20".toList).map
          (fun piece => (tokenize piece false).map (·.kind)) ≠
        Token.groups 0 ((tokenize "O'17,O'20".toList false).map (·.kind)) := by
  decide +kernel

end CrayAssembler
