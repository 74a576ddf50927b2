import V91Core.Numeric.Moments
import V91Core.Python.FloatSign

namespace V91Core.Python

open Float.Model Float.Model.UnpackedFloat V91Core.Numeric

section Exact

def Decimal.toRat (d : Decimal) : ℚ := (if d.neg then -1 else 1) * d.digits * 10 ^ d.exponent

-- `Fraction(x)`. The statistics below are those of finite values.
def exactRatio (x : Float) : ℚ := ((exactDecimal x).map Decimal.toRat).getD 0

-- Half a step above the greatest finite value. From here on a number rounds to
-- 2 ** 1024.
def overflowThreshold : ℚ := 2 ^ 1024 - 2 ^ 970

def signOf (q : ℚ) : Sign := if q < 0 then .negative else .positive

-- The value nearest to a quotient of two ints.
def nearestFloat (q : ℚ) : Float :=
  if h : 0 < q.num.natAbs then
    .ofModel (.pack (UnpackedFloat.div .binary64 (.finite (signOf q) q.num.natAbs 0 h)
      (.finite .positive q.den 0 q.den_pos)))
  else .ofModel (.pack (.zero .positive))

-- `float(q)`.
def rationalToFloat (q : ℚ) : Except PyExc Float :=
  if overflowThreshold ≤ |q| then .error .overflowError else .ok (nearestFloat q)

theorem exactRatio_zero (x : Float) (s : Sign) (h : x.toModel.unpack = .zero s) : exactRatio x = 0 := by
  simp [exactRatio, exactDecimal, h, Decimal.toRat]

theorem exactRatio_finite (x : Float) (s : Sign) (m : Nat) (e : Int) (hm : 0 < m)
    (h : x.toModel.unpack = .finite s m e hm) : exactRatio x = (s.apply m : Int) * 2 ^ e := by
  have hsign : ((s.apply m : Int) : ℚ) = (if isNegative s then -1 else 1) * m := by
    cases s with
    | negative => simp [Sign.apply, isNegative]
    | positive => simp [Sign.apply, isNegative]
  unfold exactRatio exactDecimal
  rw [h, hsign]
  dsimp only
  by_cases he : 0 ≤ e
  · obtain ⟨j, rfl⟩ := Int.eq_ofNat_of_zero_le he
    rw [if_pos he, Option.map_some, Option.getD_some, Decimal.toRat, Int.toNat_natCast, zpow_natCast, zpow_zero]
    push_cast
    ring
  · obtain ⟨k, rfl⟩ : ∃ k : Nat, e = -k := ⟨(-e).toNat, by omega⟩
    have hten : (5 : ℚ) ^ k * 10 ^ (-(k : Int)) = 2 ^ (-(k : Int)) := by
      rw [zpow_neg, zpow_neg, zpow_natCast, zpow_natCast, show (10 : ℚ) = 5 * 2 by norm_num, mul_pow]
      field_simp
    rw [if_neg he, Option.map_some, Option.getD_some, Decimal.toRat, Int.neg_neg, Int.toNat_natCast, ← hten]
    push_cast
    ring

-- The greatest finite value.
theorem abs_exactRatio_le (x : Float) : |exactRatio x| ≤ (2 ^ 53 - 1) * 2 ^ 971 := by
  have hbound : (0 : ℚ) ≤ (2 ^ 53 - 1) * 2 ^ 971 := mul_nonneg (by norm_num) (by positivity)
  cases hu : x.toModel.unpack with
  | infinity s =>
      have hnone : exactRatio x = 0 := by simp [exactRatio, exactDecimal, hu]
      rw [hnone, abs_zero]
      exact hbound
  | notANumber =>
      have hnone : exactRatio x = 0 := by simp [exactRatio, exactDecimal, hu]
      rw [hnone, abs_zero]
      exact hbound
  | zero s =>
      rw [exactRatio_zero x s hu, abs_zero]
      exact hbound
  | finite s m e hm =>
      obtain ⟨-, hcanonical⟩ := unpack_finite _ s m e hm hu
      have hlog : m.log2 < 53 := by rcases hcanonical with ⟨h, -⟩ | ⟨h, -⟩ <;> omega
      have hhigh : e ≤ 971 := by rcases hcanonical with ⟨-, -, h⟩ | ⟨-, h⟩ <;> omega
      have hm' : (m : ℚ) ≤ 2 ^ 53 - 1 := by
        have h := (Nat.log2_lt (Nat.ne_of_gt hm)).mp hlog
        have hle : m + 1 ≤ 2 ^ 53 := h
        have : ((m + 1 : Nat) : ℚ) ≤ ((2 ^ 53 : Nat) : ℚ) := Nat.cast_le.mpr hle
        push_cast at this
        linarith
      have hpow : (2 : ℚ) ^ e ≤ 2 ^ (971 : Int) := zpow_le_zpow_right₀ (by norm_num) hhigh
      have habs : |((s.apply m : Int) : ℚ)| = m := by
        cases s with
        | negative => simp [Sign.apply]
        | positive => simp [Sign.apply]
      have hscale : (0 : ℚ) < 2 ^ e := zpow_pos (by norm_num) e
      rw [exactRatio_finite x s m e hm hu, abs_mul, habs, abs_of_pos hscale]
      exact mul_le_mul hm' hpow hscale.le (by norm_num)

theorem overflowThreshold_eq : overflowThreshold = (2 ^ 54 - 1) * (2 : ℚ) ^ (970 : ℤ) := by
  have htop : (2 : ℚ) ^ 1024 = 2 ^ 54 * 2 ^ 970 := pow_add 2 54 970
  have hbase : (2 : ℚ) ^ (970 : ℤ) = 2 ^ 970 := zpow_ofNat 2 970
  rw [overflowThreshold, hbase, htop, sub_mul, one_mul]

theorem overflowThreshold_pos : 0 < overflowThreshold := by
  rw [overflowThreshold_eq]
  exact mul_pos (by norm_num) (zpow_pos (by norm_num) _)

theorem exactRatio_lt_threshold : (2 ^ 53 - 1) * 2 ^ 971 < overflowThreshold := by
  have hpos : (0 : ℚ) < 2 ^ (970 : ℤ) := zpow_pos (by norm_num) _
  have hnext : (2 : ℚ) ^ 971 = 2 * 2 ^ (970 : ℤ) := pow_succ' 2 970
  rw [overflowThreshold_eq, hnext, ← mul_assoc]
  exact mul_lt_mul_of_pos_right (by norm_num) hpos

theorem isUnsigned_nearestFloat (q : ℚ) (h : 0 ≤ q) : IsUnsigned (nearestFloat q) := by
  have hsign : signOf q = .positive := if_neg (not_lt.mpr h)
  unfold nearestFloat
  split
  · exact isUnsigned_pack _ (div_positive _ _ hsign rfl)
  · exact isUnsigned_pack _ rfl

theorem rationalToFloat_eq_ok (q : ℚ) (x : Float) :
    rationalToFloat q = .ok x ↔ |q| < overflowThreshold ∧ nearestFloat q = x := by
  unfold rationalToFloat
  split
  · next h => simp [not_lt.mpr h]
  · next h => simp [not_le.mp h]

end Exact

section Statistics

-- `statistics.mean(data)`. The sum and the quotient are exact.
def mean (data : List Float) : Except PyExc Float :=
  if data = [] then .error (.valueError (py "mean requires at least one data point"))
  else rationalToFloat (meanOf (data.map exactRatio))

-- `statistics.variance(data)`, exact up to the last step as well.
def variance (data : List Float) : Except PyExc Float :=
  if data.length < 2 then .error (.valueError (py "variance requires at least two data points"))
  else rationalToFloat (onePassDeviations (data.map exactRatio) / (data.length - 1))

-- `math.sqrt(x)`.
def mathSqrt (x : Float) : Except PyExc Float :=
  if (PyNum.float x).lt (.int 0) then .error (.valueError (py "math domain error")) else .ok x.sqrt

-- A mean of finite values is never out of range.
theorem mean_ok (data : List Float) (h : data ≠ []) : ∃ x, mean data = .ok x := by
  have hbound : |meanOf (data.map exactRatio)| ≤ (2 ^ 53 - 1) * 2 ^ 971 := by
    apply abs_meanOf_le _ _ (by simpa using h)
    intro q hq
    obtain ⟨x, -, rfl⟩ := List.mem_map.mp hq
    exact abs_exactRatio_le x
  rw [mean, if_neg h]
  exact ⟨_, (rationalToFloat_eq_ok _ _).mpr ⟨hbound.trans_lt exactRatio_lt_threshold, rfl⟩⟩

theorem variance_eq_ok (data : List Float) (x : Float) (h : 2 ≤ data.length) :
    variance data = .ok x ↔
      varianceOf (data.map exactRatio) < overflowThreshold ∧ nearestFloat (varianceOf (data.map exactRatio)) = x := by
  have hne : data.map exactRatio ≠ [] := by
    intro hnil
    rw [List.map_eq_nil_iff.mp hnil] at h
    simp at h
  have hvariance : onePassDeviations (data.map exactRatio) / (data.length - 1) = varianceOf (data.map exactRatio) := by
    rw [onePassDeviations_eq _ hne, varianceOf, List.length_map]
  have hnonneg : 0 ≤ varianceOf (data.map exactRatio) := varianceOf_nonneg _ (by rw [List.length_map]; omega)
  rw [variance, if_neg (by omega), hvariance, rationalToFloat_eq_ok, abs_of_nonneg hnonneg]

theorem variance_isUnsigned (data : List Float) (x : Float) (h : variance data = .ok x) : IsUnsigned x := by
  have hlength : 2 ≤ data.length := by
    by_contra hlt
    rw [variance, if_pos (by omega)] at h
    cases h
  obtain ⟨-, rfl⟩ := (variance_eq_ok data x hlength).mp h
  exact isUnsigned_nearestFloat _ (varianceOf_nonneg _ (by rw [List.length_map]; omega))

theorem mathSqrt_ok (x : Float) (h : IsUnsigned x) : mathSqrt x = .ok x.sqrt := by
  rw [mathSqrt, h.lt_zero]
  rfl

end Statistics

end V91Core.Python
