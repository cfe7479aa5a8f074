import Mathlib.Data.Int.Log
import Mathlib.Data.Rat.Floor
import Mathlib.Tactic.Positivity

/-! Arithmetic of 64-bit floats on rational numbers. A finite result is the exact one, rounded to 53 significant bits
with ties to even; exponents are not bounded here, so the model is that of numbers far from overflow and underflow.
Integers of less than 53 bits are exact, and nothing larger is rounded below them. -/

namespace Arcen

variable (q : ℚ)

/-- The nearest integer, the even one of two. -/
def roundHalfEven : ℤ :=
  if q - ⌊q⌋ < 1 / 2 then ⌊q⌋
  else if 1 / 2 < q - ⌊q⌋ then ⌊q⌋ + 1
  else if ⌊q⌋ % 2 = 0 then ⌊q⌋
  else ⌊q⌋ + 1

/-- The weight of the last of 53 significant bits. -/
def lastBit : ℚ := 2 ^ (Int.log 2 |q| - 52)

/-- The float nearest to a number. -/
def toBinary64 : ℚ := roundHalfEven (q / lastBit q) * lastBit q

/-- `f64::round`: the nearest integer, away from zero on a tie. -/
def roundAway : ℤ := if 0 ≤ q then ⌊q + 1 / 2⌋ else -⌊-q + 1 / 2⌋

theorem lastBit_pos : 0 < lastBit q := zpow_pos (by norm_num) _

theorem roundHalfEven_intCast (z : ℤ) : roundHalfEven z = z := by
  unfold roundHalfEven
  rw [Int.floor_intCast, if_pos (by norm_num)]

variable {q : ℚ} {z : ℤ}

theorem le_roundHalfEven (h : (z : ℚ) ≤ q) : z ≤ roundHalfEven q := by
  have hf := Int.le_floor.mpr h
  unfold roundHalfEven
  split_ifs <;> omega

theorem roundHalfEven_le (h : q ≤ z) : roundHalfEven q ≤ z := by
  by_cases hf : ⌊q⌋ < z
  · unfold roundHalfEven
    split_ifs <;> omega
  · have hle : (z : ℚ) ≤ q := Int.le_floor.mp (not_lt.mp hf)
    rw [le_antisymm h hle, roundHalfEven_intCast]

theorem roundAway_intCast (z : ℤ) : roundAway z = z := by
  have hf : ∀ n : ℤ, ⌊(n : ℚ) + 1 / 2⌋ = n := fun n => by
    rw [Int.floor_eq_iff]
    constructor <;> linarith
  unfold roundAway
  split_ifs with hz
  · exact hf z
  · rw [← Int.cast_neg, hf, neg_neg]

theorem le_abs_roundAway (h : (z : ℚ) ≤ |q|) : z ≤ |roundAway q| := by
  have hf : ∀ {r : ℚ}, (z : ℚ) ≤ r → z ≤ ⌊r + 1 / 2⌋ := fun hr => Int.le_floor.mpr (by linarith)
  unfold roundAway
  split_ifs with hq
  · rw [abs_of_nonneg hq] at h
    exact (hf h).trans (le_abs_self _)
  · rw [abs_of_neg (not_le.mp hq)] at h
    rw [abs_neg]
    exact (hf h).trans (le_abs_self _)

/-- Integers of less than 53 bits are floats. -/
theorem toBinary64_intCast (h : |z| < 2 ^ 53) : toBinary64 z = z := by
  by_cases hzero : z = 0
  · rw [hzero, toBinary64, Int.cast_zero, zero_div, ← Int.cast_zero, roundHalfEven_intCast, Int.cast_zero, zero_mul]
  have habs : (0 : ℚ) < |(z : ℚ)| := abs_pos.mpr (Int.cast_ne_zero.mpr hzero)
  have hlog : Int.log 2 |(z : ℚ)| < 53 := by
    have hlt : |(z : ℚ)| < (2 : ℕ) ^ (53 : ℤ) := by
      have hc : ((|z| : ℤ) : ℚ) < ((2 ^ 53 : ℤ) : ℚ) := Int.cast_lt.mpr h
      norm_num at hc ⊢
      exact hc
    exact (Int.lt_zpow_iff_log_lt (by norm_num) habs).mp hlt
  -- the last bit is a fraction of one, so the quotient is an integer
  obtain ⟨n, hn⟩ : ∃ n : ℕ, 52 - Int.log 2 |(z : ℚ)| = n := Int.eq_ofNat_of_zero_le (by omega)
  have hbit : lastBit z = (2 ^ n)⁻¹ := by
    rw [lastBit, show Int.log 2 |(z : ℚ)| - 52 = -(n : ℤ) by omega, zpow_neg, zpow_natCast]
  have hquot : (z : ℚ) / lastBit z = ((z * 2 ^ n : ℤ) : ℚ) := by
    rw [hbit, div_inv_eq_mul]
    push_cast
    rfl
  rw [toBinary64, hquot, roundHalfEven_intCast, ← hquot, div_mul_cancel₀ _ (lastBit_pos _).ne']

/-- No number is rounded across a power of two. -/
theorem le_abs_toBinary64 (h : 2 ^ 53 ≤ |q|) : 2 ^ 53 ≤ |toBinary64 q| := by
  have hpos : (0 : ℚ) < |q| := lt_of_lt_of_le (by norm_num) h
  have hlog : (53 : ℤ) ≤ Int.log 2 |q| := (Int.zpow_le_iff_le_log (by norm_num) hpos).mp (by exact_mod_cast h)
  have hlow : (2 : ℚ) ^ (Int.log 2 |q|) ≤ |q| := by exact_mod_cast Int.zpow_log_le_self (b := 2) (by norm_num) hpos
  have hquot : ((2 ^ 52 : ℤ) : ℚ) ≤ |q / lastBit q| := by
    have hexpo : ((52 : ℕ) : ℤ) + (Int.log 2 |q| - 52) = Int.log 2 |q| := by omega
    rw [abs_div, abs_of_pos (lastBit_pos q), le_div_iff₀ (lastBit_pos q), lastBit, Int.cast_pow, Int.cast_ofNat,
      ← zpow_natCast, ← zpow_add₀ (by norm_num), hexpo]
    exact hlow
  have hround : (2 ^ 52 : ℤ) ≤ |roundHalfEven (q / lastBit q)| := by
    rcases le_abs.mp hquot with hle | hle
    · exact (le_roundHalfEven hle).trans (le_abs_self _)
    · have hneg : q / lastBit q ≤ ((-2 ^ 52 : ℤ) : ℚ) := by
        linarith
      have := roundHalfEven_le hneg
      exact le_abs.mpr (.inr (by omega))
  have hbit : (2 : ℚ) ≤ lastBit q := by
    calc (2 : ℚ) = 2 ^ (1 : ℤ) := by norm_num
      _ ≤ 2 ^ (Int.log 2 |q| - 52) := zpow_le_zpow_right₀ (by norm_num) (by omega)
  have hc : ((2 ^ 52 : ℤ) : ℚ) ≤ |(roundHalfEven (q / lastBit q) : ℚ)| := by
    rw [← Int.cast_abs]
    exact Int.cast_le.mpr hround
  rw [toBinary64, abs_mul, abs_of_pos (lastBit_pos q)]
  calc (2 : ℚ) ^ 53 = ((2 ^ 52 : ℤ) : ℚ) * 2 := by norm_num
    _ ≤ |(roundHalfEven (q / lastBit q) : ℚ)| * lastBit q := mul_le_mul hc hbit (by norm_num) (abs_nonneg _)

/-- **Exact products.** A product of integers computed in floats and rounded is exact unless it is huge. -/
theorem roundAway_mul {a b : ℤ} (hb : 1 ≤ b) (h : |roundAway (toBinary64 (toBinary64 a * b))| < 2 ^ 53) :
    roundAway (toBinary64 (toBinary64 a * b)) = a * b := by
  have hprod : |toBinary64 a * b| < 2 ^ 53 := by
    by_contra hlarge
    have hhuge := le_abs_toBinary64 (not_lt.mp hlarge)
    have hround := le_abs_roundAway (z := 2 ^ 53) (by exact_mod_cast hhuge)
    omega
  have hone : (1 : ℚ) ≤ |(b : ℚ)| := by
    rw [← Int.cast_abs, abs_of_pos (by omega)]
    exact_mod_cast hb
  have ha : |a| < 2 ^ 53 := by
    by_contra hlarge
    have hc : (2 : ℚ) ^ 53 ≤ |(a : ℚ)| := by
      exact_mod_cast not_lt.mp hlarge
    have hhuge := le_abs_toBinary64 hc
    rw [abs_mul] at hprod
    have := mul_le_mul hhuge hone (by norm_num) (abs_nonneg _)
    linarith
  rw [toBinary64_intCast ha, ← Int.cast_mul] at hprod ⊢
  have hsmall : |a * b| < 2 ^ 53 := by
    exact_mod_cast hprod
  rw [toBinary64_intCast hsmall, roundAway_intCast]

end Arcen
