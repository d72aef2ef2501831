import CrayAssembler.Proofs.Expr.Grammar
import CrayAssembler.Proofs.Text.Digits
import CrayAssembler.Proofs.Token.Scanning
import Mathlib.Data.List.TakeDrop
import Mathlib.Data.List.TakeWhile

namespace CrayAssembler

variable {digits : List Char}

namespace Numeral

theorem splitExponent_digits (all : ∀ c ∈ digits, c.isDigit) {marker : Char}
    (letter : marker.isDigit = false) : splitExponent digits marker = .ok (digits, none) := by
  have other : ∀ c ∈ digits, decide (c.toUpper ≠ marker) = true := by
    intro c member
    rw [Text.toUpper_of_isDigit (all c member)]
    exact decide_eq_true (Text.ne_of_isDigit (all c member) letter)
  unfold splitExponent
  rw [List.span_eq_takeWhile_dropWhile, List.takeWhile_eq_self_iff.mpr other,
    List.dropWhile_eq_nil_iff.mpr other]

/-- A text of digits is read as the number that it denotes. -/
theorem read_digits {radix value : Nat} (positive : 0 < radix)
    (denotes : Text.DigitsOf radix value digits) (fits : value < UInt64.size) :
    read digits radix = .ok (.integer (UInt64.ofNat value)) := by
  have decimal : ∀ c ∈ digits, c.isDigit := fun c member => (denotes.all c member).1
  have noPoint : digits.contains '.' = false := by
    rw [Bool.eq_false_iff, Ne, List.contains_iff_mem]
    exact fun member => Text.ne_of_isDigit (decimal '.' member) (by decide) rfl
  have whole : ofDigits radix digits = .ok value := by
    rw [← denotes.value] at fits ⊢
    have nonempty := denotes.some
    rw [ofDigits, if_neg (by rwa [List.isEmpty_iff]), accumulate_eq positive denotes.all fits]
  unfold read
  rw [splitExponent_digits decimal (by decide)]
  change (splitExponent digits 'E' >>= _) = _
  rw [splitExponent_digits decimal (by decide)]
  change (if (digits.contains '.' || false) = true then _ else _) = _
  rw [noPoint, Bool.or_false, if_neg Bool.false_ne_true, whole]
  rfl

end Numeral

section Tokens

variable (anyCase : Bool) (some : digits ≠ []) (all : ∀ c ∈ digits, c.isDigit)

include some all

theorem Lexeme.scanFrom_digits (start : Nat) :
    scanFrom start 0 digits = [⟨.number, digits, start, start + Text.byteSize digits⟩] := by
  obtain ⟨c, rest, rfl⟩ := List.exists_cons_of_ne_nil some
  obtain ⟨digit, others⟩ := List.forall_mem_cons.mp all
  have solid : ¬Separates c :=
    not_or.mpr ⟨Text.ne_of_isDigit digit (by decide), Text.ne_of_isDigit digit (by decide)⟩
  have follows : rest.takeWhile Char.isDigit = rest := List.takeWhile_eq_self_iff.mpr others
  have reading : read c rest = (.number, rest.length) := by
    rw [read_other (Text.ne_of_isDigit digit (by decide)), Text.not_startChar_of_isDigit digit, digit,
      follows, List.drop_length]
    · rfl
    · intro quote
      obtain ⟨body, rfl⟩ := List.head?_eq_some_iff.mp quote
      exact (Text.ne_of_isDigit (others '\'' (List.mem_cons_self ..)) (by decide) rfl).elim
  rw [scanFrom_lexeme solid, spelling, remainder, reading, List.take_length, List.drop_length]
  rfl

theorem tokenize_digits :
    tokenize digits anyCase =
      [⟨.number (String.ofList digits), ⟨0, Text.byteSize digits⟩⟩] := by
  rw [tokenize, Lexeme.scan, Lexeme.scanFrom_digits some all, Nat.zero_add]
  rfl

theorem tokenize_negative :
    tokenize ('-' :: digits) anyCase =
      [⟨.operator .minus, ⟨0, 1⟩⟩,
        ⟨.number (String.ofList digits), ⟨1, 1 + Text.byteSize digits⟩⟩] := by
  have sign : Lexeme.scan ('-' :: digits) =
      ⟨.operator .minus, ['-'], 0, 1⟩ :: Lexeme.scanFrom 1 0 digits :=
    Lexeme.scanFrom_lexeme (by decide) 0 digits
  rw [tokenize, sign, Lexeme.scanFrom_digits some all]
  rfl

end Tokens

namespace Expr

theorem parseComplete_digits (anyCase : Bool) (some : digits ≠ []) (all : ∀ c ∈ digits, c.isDigit) :
    parseComplete (tokenize digits anyCase) digits = .ok (number (String.ofList digits)) := by
  rw [tokenize_digits anyCase some all]
  exact parseComplete_iff_spells.mpr ⟨.leaf rfl, trivial⟩

theorem parseComplete_negative (anyCase : Bool) (some : digits ≠ [])
    (all : ∀ c ∈ digits, c.isDigit) :
    parseComplete (tokenize ('-' :: digits) anyCase) ('-' :: digits) =
      .ok (unary .minus (number (String.ofList digits))) := by
  rw [tokenize_negative anyCase some all]
  exact parseComplete_iff_spells.mpr ⟨.unary rfl (.leaf rfl), rfl, trivial⟩

end Expr

end CrayAssembler
