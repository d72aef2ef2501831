import CrayAssembler.Identifier
import CrayAssembler.Numeral
import Mathlib.Data.List.Basic

namespace CrayAssembler

namespace Text

theorem toNat_of_isDigit {c : Char} (digit : c.isDigit) : 48 ≤ c.toNat ∧ c.toNat ≤ 57 := by
  simp only [Char.isDigit, Bool.and_eq_true, decide_eq_true_eq] at digit
  exact ⟨digit.1, digit.2⟩

theorem ne_of_isDigit {c other : Char} (digit : c.isDigit) (apart : other.isDigit = false) :
    c ≠ other := by
  rintro rfl
  rw [digit] at apart
  nomatch apart

theorem toUpper_of_isDigit {c : Char} (digit : c.isDigit) : c.toUpper = c := by
  obtain ⟨_, high⟩ := toNat_of_isDigit digit
  refine dif_neg fun lower => ?_
  have low : 97 ≤ c.toNat := lower.1
  omega

theorem not_startChar_of_isDigit {c : Char} (digit : c.isDigit) :
    Identifier.startChar c = false := by
  obtain ⟨low, high⟩ := toNat_of_isDigit digit
  have letter : c.isAlpha = false := by
    refine Bool.eq_false_iff.mpr fun alpha => ?_
    rcases Bool.or_eq_true_iff.mp alpha with upper | lower
    · have bounds : 65 ≤ c.toNat ∧ c.toNat ≤ 90 := of_decide_eq_true upper
      omega
    · obtain ⟨above, -⟩ := Bool.and_eq_true_iff.mp lower
      have above : 97 ≤ c.toNat := of_decide_eq_true above
      omega
  have mark (other : Char) (apart : other.isDigit = false) : decide (c = other) = false :=
    decide_eq_false (ne_of_isDigit digit apart)
  simp only [Identifier.startChar, Identifier.isMark, letter, mark '$' rfl, mark '@' rfl,
    mark '%' rfl, Bool.or_self]

/-- A digit of a radix of at most ten. -/
def IsDigitOf (radix : Nat) (c : Char) : Prop :=
  c.isDigit ∧ c.toNat - '0'.toNat < radix

instance (radix : Nat) (c : Char) : Decidable (IsDigitOf radix c) :=
  inferInstanceAs (Decidable (_ ∧ _))

theorem isDigitOf_ten {c : Char} (digit : c.isDigit) : IsDigitOf 10 c := by
  obtain ⟨_, high⟩ := toNat_of_isDigit digit
  have zero : '0'.toNat = 48 := rfl
  exact ⟨digit, by omega⟩

theorem digitValue?_of_digit {radix : Nat} {c : Char} (digit : IsDigitOf radix c) :
    digitValue? radix c = some (c.toNat - '0'.toNat) := by
  obtain ⟨decimal, small⟩ := digit
  simp only [Char.isDigit, Bool.and_eq_true, decide_eq_true_eq] at decimal
  have range : '0' ≤ c ∧ c ≤ '9' := decimal
  unfold digitValue?
  dsimp only
  rw [if_pos range, Option.filter_some, if_pos (decide_eq_true small)]

/-- The digits of a number are digits of the radix. -/
theorem isDigitOf_of_mem_toDigits {radix : Nat} (above : 1 < radix) (most : radix ≤ 10) (n : Nat)
    {c : Char} (member : c ∈ Nat.toDigits radix n) : IsDigitOf radix c := by
  have single (d : Nat) (below : d < radix) : IsDigitOf radix d.digitChar := by
    have value : Nat.ofDigitChars 10 [d.digitChar] 0 = 10 * 0 + d :=
      Nat.ofDigitChars_cons_digitChar_of_lt_ten (by omega)
    rw [Nat.ofDigitChars_cons, Nat.ofDigitChars_nil] at value
    have member : d.digitChar ∈ Nat.toDigits radix d := by
      rw [Nat.toDigits_of_lt_base below]
      exact List.mem_singleton_self _
    exact ⟨Nat.isDigit_of_mem_toDigits (by omega) most member, by omega⟩
  induction n using Nat.strongRecOn with
  | ind n ih =>
    by_cases small : n < radix
    · rw [Nat.toDigits_of_lt_base small, List.mem_singleton] at member
      rw [member]
      exact single n small
    · rw [Nat.toDigits_of_base_le above (by omega), List.mem_append, List.mem_singleton] at member
      rcases member with front | last
      · exact ih (n / radix) (Nat.div_lt_self (by omega) above) front
      · rw [last]
        exact single _ (Nat.mod_lt _ (by omega))

/-- Digits that denote a number, zeros at the front or not. -/
structure DigitsOf (radix value : Nat) (digits : List Char) : Prop where
  some : digits ≠ []
  all : ∀ c ∈ digits, IsDigitOf radix c
  value : Nat.ofDigitChars radix digits 0 = value

theorem digitsOf_toDigits {radix : Nat} (above : 1 < radix) (most : radix ≤ 10) (value : Nat) :
    DigitsOf radix value (Nat.toDigits radix value) where
  some := Nat.toDigits_ne_nil
  all _ member := isDigitOf_of_mem_toDigits above most value member
  value := Nat.ofDigitChars_toDigits above most

/-- Zeros at the front change nothing. -/
theorem DigitsOf.fill {radix value : Nat} {digits : List Char} (positive : 0 < radix)
    (denotes : DigitsOf radix value digits) (count : Nat) :
    DigitsOf radix value (List.replicate count '0' ++ digits) where
  some := List.append_ne_nil_of_right_ne_nil _ denotes.some
  all c member := by
    rcases List.mem_append.mp member with zero | digit
    · rw [List.eq_of_mem_replicate zero]
      exact ⟨rfl, positive⟩
    · exact denotes.all c digit
  value := by
    rw [Nat.ofDigitChars_append, Nat.ofDigitChars_replicate_zero, Nat.mul_zero, denotes.value]

end Text

namespace Numeral

theorem le_ofDigitChars {radix : Nat} (positive : 0 < radix) (digits : List Char) (first : Nat) :
    first ≤ Nat.ofDigitChars radix digits first := by
  induction digits generalizing first with
  | nil => exact Nat.le_refl _
  | cons c digits ih =>
    have next := ih (radix * first + (c.toNat - '0'.toNat))
    have more : first ≤ radix * first := Nat.le_mul_of_pos_left first positive
    rw [Nat.ofDigitChars_cons]
    omega

/-- Digits are read as long as what they come to fits in a word. Then what follows them is read. -/
theorem accumulate_append {radix : Nat} (positive : 0 < radix) {digits : List Char}
    (all : ∀ c ∈ digits, Text.IsDigitOf radix c) (rest : List Char) {first : Nat}
    (small : first < UInt64.size) :
    accumulate radix first (digits ++ rest) =
      if Nat.ofDigitChars radix digits first < UInt64.size then
        accumulate radix (Nat.ofDigitChars radix digits first) rest
      else .error .overflow := by
  induction digits generalizing first with
  | nil => exact (if_pos small).symm
  | cons c digits ih =>
    obtain ⟨digit, others⟩ := List.forall_mem_cons.mp all
    rw [List.cons_append, accumulate, Text.digitValue?_of_digit digit, Nat.ofDigitChars_cons,
      Nat.mul_comm radix]
    dsimp only
    split
    case isTrue next => exact ih others next
    case isFalse beyond =>
      -- the value only grows with more digits
      refine (if_neg fun fits => beyond ?_).symm
      exact Nat.lt_of_le_of_lt (le_ofDigitChars positive digits _) fits

/-- A number that fits in a word is read without fault, whatever zeros stand before it. -/
theorem accumulate_eq {radix : Nat} (positive : 0 < radix) {digits : List Char}
    (all : ∀ c ∈ digits, Text.IsDigitOf radix c) {first : Nat}
    (fits : Nat.ofDigitChars radix digits first < UInt64.size) :
    accumulate radix first digits = .ok (Nat.ofDigitChars radix digits first) := by
  have small := Nat.lt_of_le_of_lt (le_ofDigitChars positive digits first) fits
  have whole := accumulate_append positive all [] small
  rwa [List.append_nil, if_pos fits] at whole

theorem natural?_eq {digits : List Char} (some : digits ≠ []) (all : ∀ c ∈ digits, c.isDigit) :
    natural? digits = .some (Nat.ofDigitChars 10 digits 0) := by
  have fold (digits : List Char) (all : ∀ c ∈ digits, c.isDigit) (first : Nat) :
      digits.foldlM (fun value c => (Text.digitValue? 10 c).map (value * 10 + ·)) first =
        .some (Nat.ofDigitChars 10 digits first) := by
    induction digits generalizing first with
    | nil => rfl
    | cons c digits ih =>
      obtain ⟨digit, others⟩ := List.forall_mem_cons.mp all
      rw [List.foldlM_cons, Text.digitValue?_of_digit (Text.isDigitOf_ten digit),
        Nat.ofDigitChars_cons, Nat.mul_comm 10]
      exact ih others _
  unfold natural?
  rw [if_neg (by rwa [List.isEmpty_iff])]
  exact fold digits all 0

end Numeral

end CrayAssembler
