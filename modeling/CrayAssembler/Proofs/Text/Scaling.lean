import CrayAssembler.Proofs.Expr.Numbers
import Mathlib.Algebra.Order.Field.Power
import Mathlib.Data.Rat.Floor
import Mathlib.Tactic.NormNum
import Mathlib.Tactic.Positivity

namespace CrayAssembler

namespace Text

/-- Decimal digits after an optional sign, with the integer that they denote. -/
inductive SignedDigits : Int → List Char → Prop
  | plain {n : Nat} {digits : List Char} : DigitsOf 10 n digits → SignedDigits n digits
  | plus {n : Nat} {digits : List Char} : DigitsOf 10 n digits → SignedDigits n ('+' :: digits)
  | minus {n : Nat} {digits : List Char} : DigitsOf 10 n digits → SignedDigits (-n) ('-' :: digits)

/-- What may follow the digits of an integer: nothing, or a power of two with an exponent of 32 bits. -/
inductive ScaleOf : Int → List Char → Prop
  | none : ScaleOf 0 []
  | power {letter : Char} {exponent : Int} {text : List Char} : letter = 'S' ∨ letter = 's' →
      SignedDigits exponent text → -2 ^ 31 ≤ exponent → exponent < 2 ^ 31 →
      ScaleOf exponent (letter :: text)

/-- A decimal digit that is too large for the radix has no value in it. -/
theorem digitValue?_of_large {radix : Nat} {c : Char} (digit : c.isDigit)
    (large : ¬IsDigitOf radix c) : digitValue? radix c = none := by
  have beyond : ¬c.toNat - '0'.toNat < radix := fun small => large ⟨digit, small⟩
  simp only [Char.isDigit, Bool.and_eq_true, decide_eq_true_eq] at digit
  have range : '0' ≤ c ∧ c ≤ '9' := digit
  unfold digitValue?
  dsimp only
  rw [if_pos range, Option.filter_some, if_neg (by simpa using beyond)]

end Text

namespace Numeral

section Exponents

open Text (SignedDigits ScaleOf DigitsOf)

variable {power : Int} {mantissa text : List Char}

theorem natural?_of_digitsOf {n : Nat} (denotes : DigitsOf 10 n text) : natural? text = some n := by
  rw [natural?_eq denotes.some fun c member => (denotes.all c member).1, denotes.value]

theorem exponent?_signed (signed : SignedDigits power text) (low : -2 ^ 31 ≤ power)
    (high : power < 2 ^ 31) : exponent? text = some power := by
  have range : (decide (-0x80000000 ≤ power) && decide (power < 0x80000000)) = true := by
    simpa using ⟨low, high⟩
  unfold exponent?
  cases signed with
  | plus denotes | minus denotes =>
    simp only [natural?_of_digitsOf denotes, Option.map_some]
    exact Option.filter_eq_some_iff.mpr ⟨rfl, range⟩
  | plain denotes =>
    obtain ⟨c, rest, rfl⟩ := List.exists_cons_of_ne_nil denotes.some
    have digit := (denotes.all c (List.mem_cons_self ..)).1
    split
    case h_1 same => exact (Text.ne_of_isDigit digit (by decide) (List.cons.inj same).1).elim
    case h_2 same => exact (Text.ne_of_isDigit digit (by decide) (List.cons.inj same).1).elim
    case h_3 =>
      rw [natural?_of_digitsOf denotes]
      exact Option.filter_eq_some_iff.mpr ⟨rfl, range⟩

/-- The digits before a scale, and its exponent. -/
theorem splitExponent_scale (decimal : ∀ c ∈ mantissa, c.isDigit)
    (scaled : ScaleOf power text) : ∃ exponent : Option Int,
      splitExponent (mantissa ++ text) 'S' = .ok (mantissa, exponent) ∧ exponent.getD 0 = power := by
  cases scaled with
  | none =>
    rw [List.append_nil, splitExponent_digits decimal (by decide)]
    exact ⟨none, rfl, rfl⟩
  | @power letter _ digits known signed low high =>
    have before : ∀ c ∈ mantissa, decide (c.toUpper ≠ 'S') = true := by
      intro c member
      rw [Text.toUpper_of_isDigit (decimal c member)]
      exact decide_eq_true (Text.ne_of_isDigit (decimal c member) (by decide))
    have stops : decide (letter.toUpper ≠ 'S') = false := by
      rcases known with rfl | rfl <;> decide
    refine ⟨some power, ?_, rfl⟩
    unfold splitExponent
    rw [List.span_eq_takeWhile_dropWhile, List.takeWhile_append_of_pos before,
      List.dropWhile_append_of_pos before, List.takeWhile_cons, List.dropWhile_cons, stops]
    simp only [Bool.false_eq_true, if_false, List.append_nil, exponent?_signed signed low high]

/-- The digits are read before the power is applied. -/
theorem read_scaled (decimal : ∀ c ∈ mantissa, c.isDigit) (scaled : ScaleOf power text)
    (radix : Nat) :
    read (mantissa ++ text) radix =
      (ofDigits radix mantissa >>= fun n => (scaleInteger n power).map integer) := by
  have noPoint : mantissa.contains '.' = false := by
    rw [Bool.eq_false_iff, Ne, List.contains_iff_mem]
    exact fun member => Text.ne_of_isDigit (decimal '.' member) (by decide) rfl
  obtain ⟨exponent, split, rfl⟩ := splitExponent_scale decimal scaled
  unfold read
  rw [split]
  change (splitExponent mantissa 'E' >>= _) = _
  rw [splitExponent_digits decimal (by decide)]
  change (if (mantissa.contains '.' || false) = true then _ else _) = _
  rw [noPoint, Bool.or_false, if_neg Bool.false_ne_true]
  cases ofDigits radix mantissa with
  | error kind => rfl
  | ok n =>
    change (scaleInteger n (exponent.getD 0) >>= fun word => pure (integer word)) =
      (scaleInteger n (exponent.getD 0)).map integer
    cases scaleInteger n (exponent.getD 0) <;> rfl

end Exponents

section Scaling

variable {value : Nat}

/-- A word can be moved left by as many bits as it has zeros in front. -/
theorem leadingZeros_lt (fits : value < 2 ^ 64) {up : Nat} (near : up < 64) :
    leadingZeros value < up ↔ 2 ^ 64 ≤ value * 2 ^ up := by
  unfold leadingZeros
  split
  case isTrue zero =>
    rw [zero, Nat.zero_mul]
    exact iff_of_false (by omega) (by decide)
  case isFalse some =>
    have highest : value.log2 < 64 := (Nat.log2_lt some).mpr fits
    have split : 2 ^ 64 = 2 ^ (64 - up) * 2 ^ up := by
      rw [← Nat.pow_add, Nat.sub_add_cancel near.le]
    rw [split, Nat.mul_le_mul_right_iff (Nat.two_pow_pos up), ← Nat.le_log2 some]
    omega

/-- A power of two from one on either leaves room in a word, or is refused. -/
theorem scaleInteger_up (positive : 0 < value) (fits : value < 2 ^ 64) (up : Nat) :
    scaleInteger value (.ofNat up) =
      if value * 2 ^ up < 2 ^ 64 then .ok (UInt64.ofNat (value * 2 ^ up))
      else .error .overflow := by
  unfold scaleInteger
  dsimp only
  split
  case isTrue zero => rw [zero, Nat.pow_zero, Nat.mul_one, if_pos fits]
  have refused : (64 ≤ up || leadingZeros value < up) = true ↔ ¬value * 2 ^ up < 2 ^ 64 := by
    rw [Bool.or_eq_true, decide_eq_true_eq, decide_eq_true_eq, Nat.not_lt]
    by_cases far : 64 ≤ up
    · have large : 2 ^ 64 ≤ value * 2 ^ up :=
        Nat.le_trans (Nat.pow_le_pow_right (by decide) far) (Nat.le_mul_of_pos_left _ positive)
      exact iff_of_true (.inl far) large
    · rw [or_iff_right far]
      exact leadingZeros_lt fits (Nat.lt_of_not_le far)
  rw [if_congr refused rfl rfl, ite_not, Nat.shiftLeft_eq]

/-- A power of two below one drops the low bits. -/
theorem scaleInteger_down (fits : value < 2 ^ 64) (down : Nat) :
    scaleInteger value (.negSucc down) = .ok (UInt64.ofNat (value / 2 ^ (down + 1))) := by
  unfold scaleInteger
  dsimp only
  split
  case isTrue far =>
    have small : value < 2 ^ (down + 1) :=
      Nat.lt_of_lt_of_le fits (Nat.pow_le_pow_right (by decide) far)
    rw [Nat.div_eq_of_lt small]
    rfl
  case isFalse => rw [Nat.shiftRight_eq_div_pow]

/-- Scaling gives the whole part of the product if that has room in a word. -/
theorem scaleInteger_eq (positive : 0 < value) (fits : value < 2 ^ 64) (power : Int) :
    scaleInteger value power =
      if (value : ℚ) * 2 ^ power < 2 ^ 64 then .ok (UInt64.ofNat ⌊(value : ℚ) * 2 ^ power⌋₊)
      else .error .overflow := by
  cases power with
  | ofNat up =>
    have product : (value : ℚ) * 2 ^ Int.ofNat up = (value * 2 ^ up : ℕ) := by
      rw [Int.ofNat_eq_natCast, zpow_natCast]
      push_cast
      rfl
    have room : ((value * 2 ^ up : ℕ) : ℚ) < 2 ^ 64 ↔ value * 2 ^ up < 2 ^ 64 := by
      exact_mod_cast Iff.rfl
    rw [product, Nat.floor_natCast, scaleInteger_up positive fits]
    exact if_congr room.symm rfl rfl
  | negSucc down =>
    have quotient : (value : ℚ) * 2 ^ Int.negSucc down = (value : ℚ) / (2 ^ (down + 1) : ℕ) := by
      rw [zpow_negSucc, div_eq_mul_inv]
      push_cast
      rfl
    have below : (value : ℚ) / (2 ^ (down + 1) : ℕ) < 2 ^ 64 := by
      refine lt_of_le_of_lt (div_le_self value.cast_nonneg ?_) (by exact_mod_cast fits)
      exact_mod_cast Nat.one_le_two_pow
    rw [quotient, if_pos below, Rat.natFloor_natCast_div_natCast, scaleInteger_down fits]

end Scaling

section Integers

open Text (ScaleOf DigitsOf IsDigitOf)

variable {radix : Nat} {mantissa : List Char}

theorem ofDigits_of_digitsOf {number : Nat} (positive : 0 < radix)
    (denotes : DigitsOf radix number mantissa) :
    ofDigits radix mantissa = if number < 2 ^ 64 then .ok number else .error .overflow := by
  have some := denotes.some
  have empty : 0 < UInt64.size := by decide
  have whole := accumulate_append positive denotes.all [] empty
  rw [List.append_nil, denotes.value] at whole
  rw [ofDigits, if_neg (by rwa [List.isEmpty_iff]), whole]
  rfl

/-- The first digit that is too large for the radix is reported, unless those before it are too many. -/
theorem ofDigits_of_large (positive : 0 < radix) {good rest : List Char} {bad : Char}
    (valid : ∀ c ∈ good, IsDigitOf radix c) (digit : bad.isDigit) (large : ¬IsDigitOf radix bad) :
    ofDigits radix (good ++ bad :: rest) =
      .error (if Nat.ofDigitChars radix good 0 < 2 ^ 64 then .badDigit bad radix else .overflow) := by
  have some : good ++ bad :: rest ≠ [] := List.append_ne_nil_of_right_ne_nil _ (List.cons_ne_nil _ _)
  rw [ofDigits, if_neg (by rwa [List.isEmpty_iff]),
    accumulate_append positive valid (bad :: rest) (by decide), accumulate,
    Text.digitValue?_of_large digit large]
  exact (apply_ite Except.error _ _ _).symm

/-- An integer constant in radix 8 or 10 is the whole part of its digits times its power of two, if
both the number that the digits denote and the product have room in a word. -/
theorem read_scaledInteger (known : radix = 8 ∨ radix = 10) {power : Int} {tail : List Char}
    (scaled : ScaleOf power tail) :
    (∀ number, DigitsOf radix number mantissa → 0 < number →
      read (mantissa ++ tail) radix =
        if number < 2 ^ 64 ∧ (number : ℚ) * 2 ^ power < 2 ^ 64 then
          .ok (.integer (UInt64.ofNat ⌊(number : ℚ) * 2 ^ power⌋₊))
        else .error .overflow) ∧
    (∀ good bad rest, mantissa = good ++ bad :: rest → (∀ c ∈ mantissa, c.isDigit) →
      (∀ c ∈ good, IsDigitOf radix c) → ¬IsDigitOf radix bad →
      read (mantissa ++ tail) radix =
        .error (if Nat.ofDigitChars radix good 0 < 2 ^ 64 then .badDigit bad radix
          else .overflow)) := by
  have base : 0 < radix := by omega
  constructor
  case left =>
    intro number denotes positive
    rw [read_scaled (fun c member => (denotes.all c member).1) scaled,
      ofDigits_of_digitsOf base denotes]
    by_cases fits : number < 2 ^ 64
    · rw [if_pos fits]
      change (scaleInteger number power).map integer = _
      rw [scaleInteger_eq positive fits]
      simp only [fits, true_and]
      split <;> rfl
    · rw [if_neg fits, if_neg fun both => fits both.1]
      rfl
  case right =>
    rintro good bad rest rfl decimal valid large
    have digit := decimal bad (List.mem_append_right _ (List.mem_cons_self ..))
    rw [read_scaled decimal scaled, ofDigits_of_large base valid digit large]
    rfl

/-- The largest word is brought to its first bit, and a decimal digit is out of place in octal. -/
theorem read_scaledInteger_largest :
    let largest := "0018446744073709551615".toList
    ScaleOf (-63) "s-063".toList ∧ DigitsOf 10 (2 ^ 64 - 1) largest ∧
      read (largest ++ "s-063".toList) 10 = .ok (.integer 1) ∧
      ¬IsDigitOf 8 '9' ∧ read ("179".toList ++ []) 8 = .error (.badDigit '9' 8) := by
  intro largest
  have denotes : DigitsOf 10 (2 ^ 64 - 1) largest :=
    (Text.digitsOf_toDigits (by decide) (by decide) (2 ^ 64 - 1)).fill (by decide) 2
  have scale : DigitsOf 10 63 "063".toList :=
    (Text.digitsOf_toDigits (by decide) (by decide) 63).fill (by decide) 1
  have scaled : ScaleOf (-63) "s-063".toList :=
    .power (.inr rfl) (.minus scale) (by decide) (by decide)
  have large : ¬IsDigitOf 8 '9' := by decide
  have decimal := (read_scaledInteger (.inr rfl) scaled).1 (2 ^ 64 - 1) denotes (by decide)
  have good : DigitsOf 8 15 "17".toList := Text.digitsOf_toDigits (by decide) (by decide) 15
  have octal := (read_scaledInteger (.inl rfl) .none).2 "17".toList '9' [] rfl
    (List.all_eq_true.mp (by decide)) good.all large
  have whole : ⌊((2 ^ 64 - 1 : ℕ) : ℚ) * 2 ^ (-63 : ℤ)⌋₊ = 1 := by
    rw [Nat.floor_eq_iff (by positivity)]
    norm_num
  refine ⟨scaled, denotes, decimal.trans ?_, large, octal.trans rfl⟩
  rw [whole, if_pos ⟨by norm_num, by norm_num⟩]
  rfl

end Integers

end Numeral

end CrayAssembler
