import OpenaiAuth.Js.Numeral
import Mathlib.Data.Int.Log
import Mathlib.Data.Rat.Floor

/-! # Rounding to doubles

The double that is nearest to an exact value, the even one of two that are equally near.
Integers below `2 ^ 53` are doubles.
-/

namespace Js.Number

/-- The nearest integer, the even one of two. -/
def roundEven (value : ℚ) : ℤ :=
  let fraction := value - ⌊value⌋
  if fraction < 1 / 2 ∨ fraction = 1 / 2 ∧ ⌊value⌋ % 2 = 0 then ⌊value⌋ else ⌊value⌋ + 1

/-- The distance of the doubles around a value: 53 binary digits, as far as the least
exponent allows. -/
def spacing (value : ℚ) : ℚ := 2 ^ (Max.max (Int.log 2 |value| - 52) (-1074))

/-- The double that an exact value is rounded to. -/
def toDouble (value : ℚ) : Number :=
  match ofExact value with
  | .finite value => .finite (roundEven (value / spacing value) * spacing value)
  | infinite => infinite

/-- The result of an operation, rounded. -/
def rounded : Number → Number
  | .finite value => toDouble value
  | other => other

/-- `left * right` -/
def mul : Number → Number → Number
  | nan, _ => nan
  | _, nan => nan
  | finite left, finite right => finite (left * right)
  | left, right =>
      let above : Number → Bool := fun n => (finite 0).lt n
      if left = finite 0 ∨ right = finite 0 then nan
      else if above left = above right then infinity
      else negInfinity

theorem roundEven_intCast (n : ℤ) : roundEven (n : ℚ) = n := by
  rw [roundEven, Int.floor_intCast, sub_self]
  exact if_pos (.inl (by norm_num))

theorem log_lt {n : ℕ} (h : n < 2 ^ 53) : Int.log 2 |(n : ℚ)| ≤ 52 := by
  rw [abs_of_nonneg (Nat.cast_nonneg n), Int.log_natCast]
  have hlog : Nat.log 2 n < 53 := Nat.log_lt_of_lt_pow' (by omega) h
  omega

/-- The spacing divides what is a double. -/
theorem toDouble_natCast {n : ℕ} (h : n < 2 ^ 53) : toDouble (n : ℚ) = .finite n := by
  obtain ⟨k, hk⟩ : ∃ k : ℕ, spacing (n : ℚ) = ((2 : ℚ) ^ k)⁻¹ := by
    have hlog := log_lt h
    generalize hsize : Int.log 2 |(n : ℚ)| - 52 = size
    obtain ⟨k, hk⟩ : ∃ k : ℕ, Max.max size (-1074) = -(k : ℤ) :=
      ⟨(-(Max.max size (-1074))).toNat, by omega⟩
    exact ⟨k, by rw [spacing, hsize, hk, zpow_neg, zpow_natCast]⟩
  have hpower : (2 : ℚ) ^ k ≠ 0 := pow_ne_zero k two_ne_zero
  have hround : roundEven ((n : ℚ) * 2 ^ k) = ((n * 2 ^ k : ℕ) : ℤ) := by
    have hinteger : (n : ℚ) * 2 ^ k = ((n * 2 ^ k : ℕ) : ℤ) := by push_cast; rfl
    rw [hinteger, roundEven_intCast]
  simp only [toDouble, ofExact_natCast h]
  rw [hk, div_inv_eq_mul, hround]
  push_cast
  rw [mul_assoc, mul_inv_cancel₀ hpower, mul_one]

end Js.Number
