import Mathlib.Data.Nat.Size
import Mathlib.Data.Nat.Sqrt
import V91Core.Python.Statistics

namespace V91Core.Python

open V91Core.Numeric

section SquareRoot

-- `_integer_sqrt_of_frac_rto(n, m)`: an inexact root is rounded to the odd neighbour.
def integerSqrtOfFracRto (n m : Nat) : Nat :=
  let a := Nat.sqrt (n / m)
  a ||| (if a * a * m ≠ n then 1 else 0)

-- `_float_sqrt_of_frac(n, m)`.
def floatSqrtOfFrac (n m : Nat) : Except PyExc Float :=
  let q : Int := ((n.size : Int) - m.size - 109) / 2
  if 0 ≤ q then rationalToFloat ((integerSqrtOfFracRto n (m <<< (2 * q.toNat)) <<< q.toNat : Nat) : ℚ)
  else rationalToFloat ((integerSqrtOfFracRto (n <<< (2 * (-q).toNat)) m : ℚ) / ((1 <<< (-q).toNat : Nat) : ℚ))

-- `statistics.stdev(data)`.
def stdev (data : List Float) : Except PyExc Float :=
  if data.length < 2 then .error (.valueError (py "stdev requires at least two data points"))
  else
    let mss := onePassDeviations (data.map exactRatio) / (data.length - 1)
    floatSqrtOfFrac mss.num.toNat mss.den

theorem or_one (a : Nat) : a ||| 1 = 2 * (a / 2) + 1 := by
  have hdiv : (a ||| 1) / 2 = a / 2 := by simp [Nat.or_div_two]
  have hmod : (a ||| 1) % 2 = 1 := by simp [Nat.or_mod_two_eq_one]
  omega

-- Rounding to an odd number does not pass an even one.
theorem le_integerSqrt_iff (t n m : Nat) (hm : 0 < m) (ht : t % 2 = 0) :
    t ≤ integerSqrtOfFracRto n m ↔ t * t * m ≤ n := by
  have hfloor : t ≤ Nat.sqrt (n / m) ↔ t * t * m ≤ n := by
    rw [Nat.le_sqrt, Nat.le_div_iff_mul_le hm]
  rw [← hfloor]
  unfold integerSqrtOfFracRto
  dsimp only
  split
  · rw [or_one]
    omega
  · rw [Nat.or_zero]

-- `2 ** (e + 54)` less half a step of 53 bits.
def overflowAt (e : Nat) : Nat := 2 ^ e * (2 ^ 54 - 1)

theorem overflowAt_cast (e : Nat) : (overflowAt e : ℚ) = 2 ^ e * (2 ^ 54 - 1) := by
  rw [overflowAt, Nat.cast_mul, Nat.cast_pow]
  norm_num

theorem overflowAt_threshold : (overflowAt 970 : ℚ) = overflowThreshold := by
  have hbase : (2 : ℚ) ^ (970 : ℤ) = 2 ^ 970 := zpow_ofNat 2 970
  rw [overflowAt_cast, overflowThreshold_eq, hbase, mul_comm]

-- It is even on every finer scale.
theorem overflowAt_eq (e q : Nat) (h : q < e) : ∃ t, t % 2 = 0 ∧ overflowAt e = t * 2 ^ q := by
  refine ⟨2 * (2 ^ (e - q - 1) * (2 ^ 54 - 1)), by omega, ?_⟩
  have hpow : 2 ^ e = 2 * (2 ^ (e - q - 1) * 2 ^ q) := by
    rw [← pow_add, ← pow_succ', show e - q - 1 + q + 1 = e by omega]
  rw [overflowAt, hpow]
  ring

theorem overflowAt_le (e : Nat) : overflowAt e ≤ 2 ^ 54 * 2 ^ e := by
  rw [overflowAt, Nat.mul_comm]
  exact Nat.mul_le_mul_right _ (Nat.sub_le _ _)

theorem rationalToFloat_isOk_iff (q : ℚ) (h : 0 ≤ q) :
    (∃ x, rationalToFloat q = .ok x) ↔ ¬ (overflowAt 970 : ℚ) ≤ q := by
  rw [overflowAt_threshold]
  unfold rationalToFloat
  rw [abs_of_nonneg h]
  split
  · next hle => exact iff_of_false nofun (not_not.mpr hle)
  · next hlt => exact iff_of_true ⟨_, rfl⟩ hlt

-- The root of a large quotient, scaled down by a power of two.
theorem overflowAt_le_scaled (e n m q : Nat) (hm : 0 < m) (hsize : m.size + 109 + 2 * q ≤ n.size) :
    overflowAt e ≤ integerSqrtOfFracRto n (m <<< (2 * q)) <<< q ↔ overflowAt e * overflowAt e * m ≤ n := by
  have hpos : 0 < m <<< (2 * q) := by
    rw [Nat.shiftLeft_eq]
    positivity
  have hscale : ∀ t, t * t * (m <<< (2 * q)) = t * 2 ^ q * (t * 2 ^ q) * m := by
    intro t
    rw [Nat.shiftLeft_eq, two_mul q, pow_add]
    ring
  rw [Nat.shiftLeft_eq (integerSqrtOfFracRto _ _) q]
  by_cases hq : q < e
  · obtain ⟨t, heven, ht⟩ := overflowAt_eq e q hq
    rw [ht, Nat.mul_le_mul_right_iff (by positivity), le_integerSqrt_iff t n _ hpos heven, hscale]
  · have hlarge : 2 ^ 54 * 2 ^ q * (2 ^ 54 * 2 ^ q) * m ≤ n := by
      have hn : 2 ^ (m.size + 108 + 2 * q) ≤ n := Nat.lt_size.mp (by omega)
      have hm' : m ≤ 2 ^ m.size := (Nat.lt_size_self m).le
      calc
        2 ^ 54 * 2 ^ q * (2 ^ 54 * 2 ^ q) * m ≤ 2 ^ 54 * 2 ^ q * (2 ^ 54 * 2 ^ q) * 2 ^ m.size :=
          Nat.mul_le_mul_left _ hm'
        _ = 2 ^ (m.size + 108 + 2 * q) := by
          rw [← pow_add, ← pow_add, ← pow_add]
          congr 1
          omega
        _ ≤ n := hn
    have hpow : 2 ^ e ≤ 2 ^ q := Nat.pow_le_pow_right (by omega) (by omega)
    have htop : overflowAt e ≤ 2 ^ 54 * 2 ^ q := (overflowAt_le e).trans (Nat.mul_le_mul_left _ hpow)
    refine iff_of_true ?_ ?_
    · have hroot := (le_integerSqrt_iff (2 ^ 54) n _ hpos (by norm_num)).mpr ((hscale (2 ^ 54)).trans_le hlarge)
      exact htop.trans (Nat.mul_le_mul_right _ hroot)
    · exact (Nat.mul_le_mul_right m (Nat.mul_le_mul htop htop)).trans hlarge

-- The root of a small one, scaled up.
theorem overflowAt_le_unscaled (e n m k : Nat) (he : 0 < e) (hm : 0 < m) :
    (overflowAt e : ℚ) ≤ (integerSqrtOfFracRto (n <<< (2 * k)) m : ℚ) / ((1 <<< k : Nat) : ℚ) ↔
      overflowAt e * overflowAt e * m ≤ n := by
  obtain ⟨t, heven, ht⟩ := overflowAt_eq e 0 he
  have hpow : 0 < 2 ^ k := by positivity
  rw [Nat.one_shiftLeft, le_div_iff₀ (Nat.cast_pos.mpr hpow), ← Nat.cast_mul, Nat.cast_le,
    le_integerSqrt_iff _ _ m hm (by rw [ht, pow_zero, Nat.mul_one, Nat.mul_mod, heven]; simp), Nat.shiftLeft_eq,
      two_mul k, pow_add]
  have hmul : overflowAt e * 2 ^ k * (overflowAt e * 2 ^ k) * m =
      overflowAt e * overflowAt e * m * (2 ^ k * 2 ^ k) := by
    ring
  rw [hmul, Nat.mul_le_mul_right_iff (by positivity)]

theorem floatSqrtOfFrac_isOk_iff (n m : Nat) (hm : 0 < m) :
    (∃ x, floatSqrtOfFrac n m = .ok x) ↔ ¬ overflowAt 970 * overflowAt 970 * m ≤ n := by
  unfold floatSqrtOfFrac
  dsimp only
  split
  · next hq =>
      rw [rationalToFloat_isOk_iff _ (Nat.cast_nonneg _), Nat.cast_le, overflowAt_le_scaled 970 n m _ hm (by omega)]
  · next hq => rw [rationalToFloat_isOk_iff _ (by positivity), overflowAt_le_unscaled 970 n m _ (by omega) hm]

end SquareRoot

-- The standard deviation is computed where it is in the range of the floats.
theorem stdev_isOk_iff (data : List Float) (h : 2 ≤ data.length) :
    (∃ x, stdev data = .ok x) ↔ varianceOf (data.map exactRatio) < overflowThreshold ^ 2 := by
  have hne : data.map exactRatio ≠ [] := by
    intro hnil
    rw [List.map_eq_nil_iff.mp hnil] at h
    simp at h
  have hvariance : onePassDeviations (data.map exactRatio) / (data.length - 1) = varianceOf (data.map exactRatio) := by
    rw [onePassDeviations_eq _ hne, varianceOf, List.length_map]
  have hnonneg : 0 ≤ varianceOf (data.map exactRatio) := varianceOf_nonneg _ (by rw [List.length_map]; omega)
  rw [stdev, if_neg (by omega), hvariance]
  dsimp only
  generalize varianceOf (data.map exactRatio) = q at hnonneg
  rw [floatSqrtOfFrac_isOk_iff _ _ q.den_pos, ← overflowAt_threshold, not_le]
  have hnum : (q.num.toNat : ℚ) = q * q.den := by
    rw [Rat.mul_den_eq_num]
    exact_mod_cast Int.toNat_of_nonneg (Rat.num_nonneg.mpr hnonneg)
  have hden : (0 : ℚ) < q.den := Nat.cast_pos.mpr q.den_pos
  rw [← Nat.cast_lt (α := ℚ), Nat.cast_mul, Nat.cast_mul, hnum, mul_lt_mul_iff_left₀ hden, sq]

end V91Core.Python
