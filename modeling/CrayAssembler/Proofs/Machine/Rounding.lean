import CrayAssembler.Machine.FloatWord
import Mathlib.Algebra.Order.Field.Power
import Mathlib.Data.Int.Log
import Mathlib.Data.Rat.Floor
import Mathlib.Tactic.Linarith
import Mathlib.Tactic.Positivity
import Mathlib.Tactic.Ring

namespace CrayAssembler

namespace Double

/-- Neither zero nor subnormal, infinite or a NaN. -/
def IsNormal (x : Double) : Prop :=
  0 < x.exponentField ∧ x.exponentField < 2047

instance (x : Double) : Decidable x.IsNormal :=
  inferInstanceAs (Decidable (_ ∧ _))

/-- Nonzero and too small to be normal. -/
def IsSubnormal (x : Double) : Prop :=
  x.exponentField = 0 ∧ x.fractionField ≠ 0

instance (x : Double) : Decidable x.IsSubnormal :=
  inferInstanceAs (Decidable (_ ∧ _))

/-- Exact absolute value of a finite number. -/
def magnitude (x : Double) : ℚ :=
  x.significand * 2 ^ x.scale

/-- Exact value of a finite number. -/
def value (x : Double) : ℚ :=
  if x.negative then -x.magnitude else x.magnitude

theorem fractionField_lt (x : Double) : x.fractionField < hiddenBit :=
  Nat.mod_lt _ (by decide)

theorem exponentField_lt (x : Double) : x.exponentField < 2048 :=
  Nat.mod_lt _ (by decide)

theorem IsNormal.significand_bounds {x : Double} (normal : x.IsNormal) :
    2 ^ 52 ≤ x.significand ∧ x.significand < 2 ^ 53 := by
  have fraction := x.fractionField_lt
  have other : x.exponentField ≠ 0 := by
    have := normal.1
    omega
  simp only [significand, other, if_false, hiddenBit] at fraction ⊢
  omega

theorem IsNormal.scale_eq {x : Double} (normal : x.IsNormal) :
    x.scale = (x.exponentField : ℤ) - 1075 := by
  have positive := normal.1
  simp only [scale]
  omega

theorem IsNormal.magnitude_pos {x : Double} (normal : x.IsNormal) : 0 < x.magnitude := by
  have bounds := normal.significand_bounds
  have positive : (0 : ℚ) < x.significand := by
    have : 0 < x.significand := by omega
    exact_mod_cast this
  unfold magnitude
  positivity

end Double

namespace FloatWord

def negative (word : Word) : Bool :=
  signWeight ≤ word.toNat

def exponentField (word : Word) : Nat :=
  word.toNat / coefficientLimit % 0x8000

def coefficient (word : Word) : Nat :=
  word.toNat % coefficientLimit

/-- Exact absolute value of a word. -/
def magnitude (word : Word) : ℚ :=
  coefficient word * 2 ^ ((exponentField word : ℤ) - exponentBias - coefficientBits)

/-- Exact value of a word. -/
def value (word : Word) : ℚ :=
  if negative word then -magnitude word else magnitude word

theorem magnitude_nonneg (word : Word) : 0 ≤ magnitude word := by
  unfold magnitude
  positivity

section Fields

variable {sign : Bool} {exponent fraction : Nat}

theorem toNat_compose (small : exponent < 0x8000) (short : fraction < coefficientLimit) :
    (compose sign exponent fraction).toNat =
      (if sign then signWeight else 0) + exponent * coefficientLimit + fraction := by
  unfold compose
  apply UInt64.toNat_ofNat_of_lt'
  simp only [coefficientLimit, signWeight, UInt64.size] at short ⊢
  split <;> omega

theorem negative_compose (small : exponent < 0x8000) (short : fraction < coefficientLimit) :
    negative (compose sign exponent fraction) = sign := by
  unfold negative
  rw [toNat_compose small short]
  simp only [coefficientLimit, signWeight] at short ⊢
  cases sign
  · simp
    omega
  · simp
    omega

theorem exponentField_compose (small : exponent < 0x8000) (short : fraction < coefficientLimit) :
    exponentField (compose sign exponent fraction) = exponent := by
  unfold exponentField
  rw [toNat_compose small short]
  simp only [coefficientLimit, signWeight] at short ⊢
  split <;> omega

theorem coefficient_compose (small : exponent < 0x8000) (short : fraction < coefficientLimit) :
    coefficient (compose sign exponent fraction) = fraction := by
  unfold coefficient
  rw [toNat_compose small short]
  simp only [coefficientLimit, signWeight] at short ⊢
  split <;> omega

end Fields

section Rounding

/-- A significand to the nearest multiple of 32, a half upward. -/
def nearest (significand : Nat) : Nat :=
  32 * ((significand + 16) / 32)

theorem nearest_bounds (significand : Nat) :
    significand < nearest significand + 16 ∧ nearest significand ≤ significand + 16 := by
  unfold nearest
  omega

theorem nearest_mono {first second : Nat} (le : first ≤ second) : nearest first ≤ nearest second := by
  unfold nearest
  omega

theorem nearest_of_dvd {significand : Nat} (exact : 32 ∣ significand) :
    nearest significand = significand := by
  unfold nearest
  omega

theorem shorten_eq (significand : Nat) : shorten significand = (significand + 16) / 32 := by
  have kept : significand >>> droppedBits = significand / 32 := Nat.shiftRight_eq_div_pow significand 5
  have half : significand >>> (droppedBits - 1) = significand / 16 :=
    Nat.shiftRight_eq_div_pow significand 4
  unfold shorten
  rw [kept, half]
  dsimp only
  split <;> omega

/-- The exponent of a normal number has room in the field, also after a carry: neither check of its
range is ever met. -/
theorem pack_normal {x : Double} (normal : x.IsNormal) {carry : Nat} (single : carry ≤ 1)
    (coefficient : Nat) : pack x ((x.exponentField : ℤ) - 1022 + carry) coefficient =
      .ok (compose x.negative (x.exponentField + exponentBias - 1022 + carry) coefficient) := by
  obtain ⟨positive, finite⟩ := normal
  have field : (x.exponentField : ℤ) - 1022 + carry + exponentBias =
      ((x.exponentField + exponentBias - 1022 + carry : ℕ) : ℤ) := by
    simp only [exponentBias]
    omega
  have room : x.exponentField + exponentBias - 1022 + carry ≤ exponentMax := by
    simp only [exponentBias, exponentMax]
    omega
  unfold pack
  rw [field]
  dsimp only
  rw [if_neg (by omega), if_neg (by omega), Int.toNat_natCast]

/-- What becomes of a normal number: the carry, if there is one, halves the coefficient. -/
theorem ofDouble_of_normal {x : Double} (normal : x.IsNormal) : ofDouble x =
    if (x.significand + 16) / 32 < coefficientLimit then
      .ok (compose x.negative (x.exponentField + exponentBias - 1022) ((x.significand + 16) / 32))
    else
      .ok (compose x.negative (x.exponentField + exponentBias - 1022 + 1)
        ((x.significand + 16) / 32 / 2)) := by
  have finite : x.exponentField ≠ 2047 := by
    have := normal.2
    omega
  have nonzero : x.exponentField ≠ 0 := by
    have := normal.1
    omega
  have same := pack_normal normal (Nat.zero_le 1) ((x.significand + 16) / 32)
  have carried := pack_normal normal (le_refl 1) ((x.significand + 16) / 32 / 2)
  simp only [Nat.cast_zero, add_zero, Nat.cast_one] at same carried
  have short : ((x.significand + 16) / 32) >>> coefficientBits = 0 ↔
      (x.significand + 16) / 32 < coefficientLimit := by
    rw [Nat.shiftRight_eq_div_pow]
    exact Nat.div_eq_zero_iff_lt (by decide)
  simp only [ofDouble, Double.isNaN, Double.isInfinite, Double.isZero, finite, nonzero, shorten_eq,
    decide_false, Bool.false_and, Bool.false_eq_true, if_false, ne_eq, ite_not, short,
    Nat.shiftRight_one, same, carried]

/-- A normal number keeps its sign and its power of two; its significand is rounded. -/
theorem ofDouble_normal {x : Double} (normal : x.IsNormal) :
    ∃ word, ofDouble x = .ok word ∧ negative word = x.negative ∧ 2 ^ 47 ≤ coefficient word ∧
      magnitude word = nearest x.significand * 2 ^ x.scale := by
  obtain ⟨lower, upper⟩ := normal.significand_bounds
  have scale := normal.scale_eq
  rw [ofDouble_of_normal normal]
  obtain ⟨positive, finite⟩ := normal
  by_cases short : (x.significand + 16) / 32 < coefficientLimit
  · have small : x.exponentField + exponentBias - 1022 < 0x8000 := by
      simp only [exponentBias]
      omega
    refine ⟨_, if_pos short, negative_compose small short, ?_, ?_⟩
    · rw [coefficient_compose small short]
      omega
    · have power : x.scale + 5 =
          ((x.exponentField + exponentBias - 1022 : ℕ) : ℤ) - exponentBias - coefficientBits := by
        simp only [exponentBias, coefficientBits]
        omega
      rw [magnitude, coefficient_compose small short, exponentField_compose small short, ← power,
        zpow_add₀ (by norm_num), nearest]
      push_cast
      ring
  · have small : x.exponentField + exponentBias - 1022 + 1 < 0x8000 := by
      simp only [exponentBias]
      omega
    -- Only the largest significands carry, all to the same power of two.
    have carry : (x.significand + 16) / 32 = 2 ^ 48 := by
      simp only [coefficientLimit] at short
      omega
    have half : 2 ^ 48 / 2 < coefficientLimit := by decide
    rw [if_neg short, carry]
    refine ⟨_, rfl, negative_compose small half, ?_, ?_⟩
    · rw [coefficient_compose small half]
      decide
    · have power : x.scale + 6 =
          ((x.exponentField + exponentBias - 1022 + 1 : ℕ) : ℤ) - exponentBias - coefficientBits := by
        simp only [exponentBias, coefficientBits]
        omega
      rw [magnitude, coefficient_compose small half, exponentField_compose small half, ← power,
        zpow_add₀ (by norm_num), nearest, carry]
      push_cast
      ring

theorem nearest_ordered {first second : Nat} {low high : ℤ} (firstLower : 2 ^ 52 ≤ first)
    (firstUpper : first < 2 ^ 53) (secondLower : 2 ^ 52 ≤ second) (secondUpper : second < 2 ^ 53)
    (le : (first : ℚ) * 2 ^ low ≤ second * 2 ^ high) :
    (nearest first : ℚ) * 2 ^ low ≤ nearest second * 2 ^ high := by
  have two : (2 : ℚ) ≠ 0 := by norm_num
  have doubled (power : ℤ) : (2 : ℚ) ^ 53 * 2 ^ power = 2 ^ 52 * 2 ^ (power + 1) := by
    rw [zpow_add₀ two]
    ring
  have raised {power other : ℤ} (below : power < other) : (2 : ℚ) ^ (power + 1) ≤ 2 ^ other :=
    zpow_le_zpow_right₀ (by norm_num) (by omega)
  rcases lt_trichotomy low high with below | rfl | above
  · have most : (nearest first : ℚ) ≤ 2 ^ 53 := by
      have : nearest first ≤ 2 ^ 53 := by
        unfold nearest
        omega
      exact_mod_cast this
    have least : (2 : ℚ) ^ 52 ≤ nearest second := by
      have : 2 ^ 52 ≤ nearest second := by
        unfold nearest
        omega
      exact_mod_cast this
    calc (nearest first : ℚ) * 2 ^ low ≤ 2 ^ 53 * 2 ^ low := by gcongr
      _ = 2 ^ 52 * 2 ^ (low + 1) := doubled low
      _ ≤ 2 ^ 52 * 2 ^ high := mul_le_mul_of_nonneg_left (raised below) (by positivity)
      _ ≤ nearest second * 2 ^ high := by gcongr
  · have significands : first ≤ second := by
      have := le_of_mul_le_mul_right le (by positivity)
      exact_mod_cast this
    have ordered : (nearest first : ℚ) ≤ nearest second := by
      exact_mod_cast nearest_mono significands
    gcongr
  · exfalso
    have most : (second : ℚ) < 2 ^ 53 := by exact_mod_cast secondUpper
    have least : (2 : ℚ) ^ 52 ≤ first := by exact_mod_cast firstLower
    have less : (second : ℚ) * 2 ^ high < first * 2 ^ low :=
      calc (second : ℚ) * 2 ^ high < 2 ^ 53 * 2 ^ high := by gcongr
        _ = 2 ^ 52 * 2 ^ (high + 1) := doubled high
        _ ≤ 2 ^ 52 * 2 ^ low := mul_le_mul_of_nonneg_left (raised above) (by positivity)
        _ ≤ first * 2 ^ low := by gcongr
    linarith

end Rounding

section Conversion

variable {x y : Double} {word other : Word}

theorem magnitude_ordered (normal : x.IsNormal) (more : y.IsNormal)
    (found : magnitude word = nearest x.significand * 2 ^ x.scale)
    (next : magnitude other = nearest y.significand * 2 ^ y.scale)
    (le : x.magnitude ≤ y.magnitude) : magnitude word ≤ magnitude other := by
  obtain ⟨firstLower, firstUpper⟩ := normal.significand_bounds
  obtain ⟨secondLower, secondUpper⟩ := more.significand_bounds
  rw [found, next]
  exact nearest_ordered firstLower firstUpper secondLower secondUpper le

/-- Words of normal numbers are in the order of the numbers. -/
theorem value_ordered (normal : x.IsNormal) (more : y.IsNormal) (converts : ofDouble x = .ok word)
    (follows : ofDouble y = .ok other) (le : x.value ≤ y.value) : value word ≤ value other := by
  obtain ⟨_, converts', sign, -, found⟩ := ofDouble_normal normal
  obtain ⟨_, follows', otherSign, -, next⟩ := ofDouble_normal more
  cases converts.symm.trans converts'
  cases follows.symm.trans follows'
  have positive := normal.magnitude_pos
  have otherPositive := more.magnitude_pos
  have above := magnitude_nonneg word
  have otherAbove := magnitude_nonneg other
  cases minus : x.negative <;> cases otherMinus : y.negative <;>
    simp only [value, Double.value, sign, otherSign, minus, otherMinus, if_true, if_false,
      Bool.false_eq_true] at le ⊢
  · exact magnitude_ordered normal more found next le
  · linarith
  · linarith
  · exact neg_le_neg (magnitude_ordered more normal next found (neg_le_neg_iff.mp le))

/-- How a word stands for a number of `e` places before the binary point: with the sign of the number,
normalized, off by half a unit of the last place at most, on a tie away from zero, and exactly where
the number has no more than 48 bits. -/
structure Rounds (x : Double) (e : ℤ) (word : Word) : Prop where
  lower : 2 ^ (e - 1) ≤ x.magnitude
  upper : x.magnitude < 2 ^ e
  sign : negative word = x.negative
  normalized : 2 ^ 47 ≤ coefficient word
  near : |magnitude word - x.magnitude| ≤ 2 ^ (e - 49)
  tie : |magnitude word - x.magnitude| = 2 ^ (e - 49) → x.magnitude < magnitude word
  exact : 32 ∣ x.significand → magnitude word = x.magnitude

theorem rounds_of_nearest (normal : x.IsNormal) (sign : negative word = x.negative)
    (normalized : 2 ^ 47 ≤ coefficient word)
    (found : magnitude word = nearest x.significand * 2 ^ x.scale) :
    Rounds x (x.scale + 53) word := by
  obtain ⟨lower, upper⟩ := normal.significand_bounds
  obtain ⟨below, above⟩ := nearest_bounds x.significand
  have two : (2 : ℚ) ≠ 0 := by norm_num
  have unit : (0 : ℚ) < 2 ^ x.scale := by positivity
  have half : (2 : ℚ) ^ (x.scale + 53 - 49) = 16 * 2 ^ x.scale := by
    rw [show x.scale + 53 - 49 = x.scale + 4 by omega, zpow_add₀ two]
    ring
  have error : magnitude word - x.magnitude =
      ((nearest x.significand : ℚ) - x.significand) * 2 ^ x.scale := by
    rw [found, Double.magnitude]
    ring
  have offset : -16 < (nearest x.significand : ℚ) - x.significand ∧
      (nearest x.significand : ℚ) - x.significand ≤ 16 := by
    have under : (x.significand : ℚ) < nearest x.significand + 16 := by exact_mod_cast below
    have most : (nearest x.significand : ℚ) ≤ x.significand + 16 := by exact_mod_cast above
    constructor <;> linarith
  refine ⟨?_, ?_, sign, normalized, ?_, ?_, ?_⟩
  · have least : (2 : ℚ) ^ 52 ≤ x.significand := by exact_mod_cast lower
    rw [Double.magnitude, show x.scale + 53 - 1 = 52 + x.scale by omega, zpow_add₀ two]
    gcongr
    exact_mod_cast least
  · have most : (x.significand : ℚ) < 2 ^ 53 := by exact_mod_cast upper
    rw [Double.magnitude, show x.scale + 53 = 53 + x.scale by omega, zpow_add₀ two]
    gcongr
    exact_mod_cast most
  · rw [error, half, abs_mul, abs_of_pos unit]
    gcongr
    exact abs_le.mpr ⟨offset.1.le, offset.2⟩
  · intro tie
    rw [error, half, abs_mul, abs_of_pos unit] at tie
    have tie := mul_right_cancel₀ unit.ne' tie
    have positive : (0 : ℚ) < (nearest x.significand : ℚ) - x.significand := by
      rcases abs_choice ((nearest x.significand : ℚ) - x.significand) with same | same
      · rw [← same, tie]
        norm_num
      · have := offset.1
        linarith
    have := mul_pos positive unit
    linarith
  · intro exact
    rw [found, nearest_of_dvd exact, Double.magnitude]

/-- A normal number has a word, correctly rounded, and greater numbers have no lesser words. -/
theorem ofDouble_rounds (x : Double) (normal : x.IsNormal) :
    ∃ word e, ofDouble x = .ok word ∧ Rounds x e word ∧
      ∀ y other, y.IsNormal → ofDouble y = .ok other → x.value ≤ y.value →
        value word ≤ value other := by
  obtain ⟨word, converts, sign, normalized, found⟩ := ofDouble_normal normal
  refine ⟨word, x.scale + 53, converts, rounds_of_nearest normal sign normalized found, ?_⟩
  intro y other more follows le
  exact value_ordered normal more converts follows le

/-- A number halfway between two words, the greater of which has another exponent. -/
theorem ofDouble_rounds_carry :
    (⟨0x3ffffffffffffff0⟩ : Double).IsNormal ∧
      ofDouble ⟨0x3ffffffffffffff0⟩ = .ok 0x4002800000000000 ∧
      ∃ word e, ofDouble ⟨0x3ffffffffffffff0⟩ = .ok word ∧ Rounds ⟨0x3ffffffffffffff0⟩ e word ∧
        ∀ y other, y.IsNormal → ofDouble y = .ok other →
          Double.value ⟨0x3ffffffffffffff0⟩ ≤ y.value → value word ≤ value other :=
  ⟨by decide, by decide, ofDouble_rounds _ (by decide)⟩

end Conversion

section Range

/-- Number of places before the binary point: the exponent that brings a positive number between one
half and one. -/
def binaryExponent (m : ℚ) : ℤ :=
  Int.log 2 m + 1

/-- A positive number to 48 bits, a half upward. -/
def rounded (m : ℚ) : ℚ :=
  ⌊m * 2 ^ (48 - binaryExponent m) + 1 / 2⌋ * 2 ^ (binaryExponent m - 48)

/-- The exponent field has room for the exponent. -/
def HasField (e : ℤ) : Prop :=
  0 ≤ e + exponentBias ∧ e + exponentBias < 0x8000

variable {m : ℚ}

theorem binaryExponent_le (positive : 0 < m) (e : ℤ) : binaryExponent m ≤ e ↔ m < 2 ^ e := by
  unfold binaryExponent
  rw [Int.add_one_le_iff]
  exact_mod_cast (Int.lt_zpow_iff_log_lt Nat.one_lt_two positive).symm

theorem lt_binaryExponent (positive : 0 < m) (e : ℤ) : e < binaryExponent m ↔ 2 ^ e ≤ m := by
  rw [← not_le, binaryExponent_le positive, not_lt]

/-- Rounding keeps a number between the same powers of two. -/
theorem rounded_bounds (positive : 0 < m) :
    2 ^ (binaryExponent m - 1) ≤ rounded m ∧ rounded m ≤ 2 ^ binaryExponent m := by
  have two : (2 : ℚ) ≠ 0 := by norm_num
  have lower := (lt_binaryExponent positive (binaryExponent m - 1)).mp (by omega)
  have upper := (binaryExponent_le positive (binaryExponent m)).mp le_rfl
  unfold rounded
  generalize binaryExponent m = e at lower upper ⊢
  have scaled (power : ℤ) : (2 : ℚ) ^ power * 2 ^ (48 - e) = 2 ^ (power + 48 - e) := by
    rw [← zpow_add₀ two]
    congr 1
    omega
  have restored (power : ℤ) : (2 : ℚ) ^ (power + 48 - e) * 2 ^ (e - 48) = 2 ^ power := by
    rw [← zpow_add₀ two]
    congr 1
    omega
  have unit : (0 : ℚ) < 2 ^ (48 - e) := by positivity
  have least : (2 : ℤ) ^ 47 ≤ ⌊m * 2 ^ (48 - e) + 1 / 2⌋ := by
    have := mul_le_mul_of_nonneg_right lower unit.le
    rw [scaled, show e - 1 + 48 - e = 47 by omega] at this
    rw [Int.le_floor]
    push_cast
    norm_num at this ⊢
    linarith
  have most : ⌊m * 2 ^ (48 - e) + 1 / 2⌋ ≤ (2 : ℤ) ^ 48 := by
    have := mul_lt_mul_of_pos_right upper unit
    rw [scaled, show e + 48 - e = 48 by omega] at this
    rw [← Int.lt_add_one_iff, Int.floor_lt]
    push_cast
    norm_num at this ⊢
    linarith
  constructor
  · rw [← restored (e - 1), show e - 1 + 48 - e = 47 by omega]
    gcongr
    exact_mod_cast least
  · rw [← restored e, show e + 48 - e = 48 by omega]
    gcongr
    exact_mod_cast most

theorem binaryExponent_rounded (positive : 0 < m) :
    binaryExponent m ≤ binaryExponent (rounded m) ∧
      binaryExponent (rounded m) ≤ binaryExponent m + 1 := by
  obtain ⟨lower, upper⟩ := rounded_bounds positive
  have above : 0 < rounded m := lt_of_lt_of_le (by positivity) lower
  constructor
  · have := (lt_binaryExponent above _).mpr lower
    omega
  · refine (binaryExponent_le above _).mpr (upper.trans_lt ?_)
    exact zpow_lt_zpow_right₀ (by norm_num) (by omega)

/-- Finite numbers of the host lie between these powers of two. -/
theorem magnitude_bounds {x : Double} (finite : x.isFinite) (nonzero : ¬x.isZero) :
    2 ^ (-1074 : ℤ) ≤ x.magnitude ∧ x.magnitude < 2 ^ (1024 : ℤ) := by
  have fraction := x.fractionField_lt
  have field := x.exponentField_lt
  simp only [Double.isFinite, Double.isZero, Double.hiddenBit, decide_eq_true_eq, ne_eq,
    Bool.and_eq_true] at finite nonzero fraction
  have significands : 1 ≤ x.significand ∧ x.significand < 2 ^ 53 := by
    simp only [Double.significand, Double.hiddenBit]
    split <;> omega
  have scales : -1074 ≤ x.scale ∧ x.scale ≤ 971 := by
    simp only [Double.scale]
    omega
  have least : (1 : ℚ) ≤ x.significand := by exact_mod_cast significands.1
  have most : (x.significand : ℚ) < 2 ^ (53 : ℤ) := by exact_mod_cast significands.2
  have low : (2 : ℚ) ^ (-1074 : ℤ) ≤ 2 ^ x.scale := zpow_le_zpow_right₀ (by norm_num) scales.1
  have unit : (0 : ℚ) < 2 ^ x.scale := by positivity
  unfold Double.magnitude
  constructor
  · calc (2 : ℚ) ^ (-1074 : ℤ) ≤ 1 * 2 ^ x.scale := by rwa [one_mul]
      _ ≤ x.significand * 2 ^ x.scale := by gcongr
  · calc (x.significand : ℚ) * 2 ^ x.scale < 2 ^ (53 : ℤ) * 2 ^ x.scale := by gcongr
      _ = 2 ^ (53 + x.scale) := (zpow_add₀ (by norm_num) ..).symm
      _ ≤ 2 ^ (1024 : ℤ) := zpow_le_zpow_right₀ (by norm_num) (by omega)

/-- No finite number of the host leaves the range of the exponent field. -/
theorem hasField_rounded {x : Double} (finite : x.isFinite) (nonzero : ¬x.isZero) :
    HasField (binaryExponent (rounded x.magnitude)) := by
  obtain ⟨lower, upper⟩ := magnitude_bounds finite nonzero
  have positive : 0 < x.magnitude := lt_of_lt_of_le (by positivity) lower
  have least := (lt_binaryExponent positive _).mpr lower
  have most := (binaryExponent_le positive _).mpr upper
  obtain ⟨above, below⟩ := binaryExponent_rounded positive
  simp only [HasField, exponentBias]
  omega

/-- What becomes of a number of the host. -/
inductive Outcome (x : Double) : Except RangeError Word → Prop
  | notANumber (nan : x.isNaN) : Outcome x (.error .notANumber)
  | overflow (infinite : x.isInfinite) : Outcome x (.error (.overflow x))
  | underflow (subnormal : x.IsSubnormal) : Outcome x (.error (.underflow x))
  | word (word : Word) (finite : x.isFinite) (other : ¬x.IsSubnormal) : Outcome x (.ok word)

theorem outcome_ofDouble (x : Double) : Outcome x (ofDouble x) := by
  by_cases special : x.exponentField = 2047
  · by_cases fraction : x.fractionField = 0
    · have infinite : x.isInfinite := by simp [Double.isInfinite, special, fraction]
      have number : x.isNaN = false := by simp [Double.isNaN, fraction]
      simpa [ofDouble, number, infinite] using Outcome.overflow infinite
    · have nan : x.isNaN := by simp [Double.isNaN, special, fraction]
      simpa [ofDouble, nan] using Outcome.notANumber nan
  · have finite : x.isFinite := by simp [Double.isFinite, special]
    have number : x.isNaN = false := by simp [Double.isNaN, special]
    have bounded : x.isInfinite = false := by simp [Double.isInfinite, special]
    by_cases least : x.exponentField = 0
    · by_cases fraction : x.fractionField = 0
      · have zero : x.isZero := by simp [Double.isZero, least, fraction]
        have other : ¬x.IsSubnormal := fun subnormal => subnormal.2 fraction
        simpa [ofDouble, number, bounded, zero] using Outcome.word 0 finite other
      · have nonzero : x.isZero = false := by simp [Double.isZero, fraction]
        simpa [ofDouble, number, bounded, nonzero, least] using Outcome.underflow ⟨least, fraction⟩
    · have field := x.exponentField_lt
      have other : ¬x.IsSubnormal := fun subnormal => least subnormal.1
      obtain ⟨word, converts, -⟩ := ofDouble_normal ⟨Nat.pos_of_ne_zero least, by omega⟩
      rw [converts]
      exact .word word finite other

/-- A number is refused exactly if it is a NaN, infinite or subnormal, for one reason each, although
every finite number but zero, subnormal ones included, has an exponent for which there is room. -/
theorem ofDouble_refuses (x : Double) :
    ((∃ reason, ofDouble x = .error reason) ↔ x.isNaN ∨ x.isInfinite ∨ x.IsSubnormal) ∧
      (x.isNaN → ofDouble x = .error .notANumber) ∧
      (x.isInfinite → ofDouble x = .error (.overflow x)) ∧
      (x.IsSubnormal → ofDouble x = .error (.underflow x)) ∧
      (x.isFinite → ¬x.isZero → HasField (binaryExponent (rounded x.magnitude))) := by
  have outcome := outcome_ofDouble x
  have nan : x.isNaN ↔ x.exponentField = 2047 ∧ x.fractionField ≠ 0 := by simp [Double.isNaN]
  have infinite : x.isInfinite ↔ x.exponentField = 2047 ∧ x.fractionField = 0 := by
    simp [Double.isInfinite]
  have finite : x.isFinite ↔ x.exponentField ≠ 2047 := by simp [Double.isFinite]
  generalize ofDouble x = result at outcome ⊢
  refine ⟨?_, ?_, ?_, ?_, hasField_rounded⟩
  · cases outcome with
    | notANumber here => simp [here]
    | overflow here => simp [here]
    | underflow here => simp [here]
    | word word here other =>
      rw [finite] at here
      simp [nan, infinite, here, other]
  · intro refused
    cases outcome with
    | notANumber => rfl
    | overflow here => exact absurd (infinite.mp here).2 (nan.mp refused).2
    | underflow here => have := (nan.mp refused).1; have := here.1; omega
    | word word here other => exact absurd (nan.mp refused).1 (finite.mp here)
  · intro refused
    cases outcome with
    | notANumber here => exact absurd (infinite.mp refused).2 (nan.mp here).2
    | overflow => rfl
    | underflow here => exact absurd (infinite.mp refused).2 here.2
    | word word here other => exact absurd (infinite.mp refused).1 (finite.mp here)
  · intro refused
    cases outcome with
    | notANumber here => have := (nan.mp here).1; have := refused.1; omega
    | overflow here => exact absurd (infinite.mp here).2 refused.2
    | underflow => rfl
    | word word here other => exact absurd refused other

/-- The least positive number of the host has an exponent for which there is room, and is refused. -/
theorem least_refused :
    ofDouble ⟨1⟩ = .error (.underflow ⟨1⟩) ∧ ¬(⟨1⟩ : Double).isNaN ∧ ¬(⟨1⟩ : Double).isInfinite ∧
      HasField (binaryExponent (rounded (Double.magnitude ⟨1⟩))) :=
  ⟨by decide, by decide, by decide, hasField_rounded (by decide) (by decide)⟩

end Range

end FloatWord

end CrayAssembler
