import V91Core.Python.Order
import V91Core.Python.Statistics

namespace V91Core.Python

open Float.Model Float.Model.UnpackedFloat

section Packing

theorem unpackExponent_packComponents (s : Sign) (e : BitVec 11) (m : BitVec 52) :
    unpackExponent (packComponents .binary64 s e m) = e := by
  ext i hi
  simp only [unpackExponent, packComponents]
  grind [BitVec.extractLsb]

-- The packed form has the exponent that is kept for infinities and NaN.
def Overflows (u : UnpackedFloat) : Prop := unpackExponent (UnpackedFloat.pack .binary64 u) = -1#11

theorem isFinite_pack (u : UnpackedFloat) : Json.isFinite (.ofModel (.pack u)) = true ↔ ¬ Overflows u := by
  have hunpack : (Float.ofModel (.pack u)).toModel.unpack =
      UnpackedFloat.unpack .binary64 (UnpackedFloat.pack .binary64 u) := rfl
  unfold Json.isFinite exactDecimal Overflows
  rw [hunpack, UnpackedFloat.unpack]
  by_cases hexp : unpackExponent (UnpackedFloat.pack .binary64 u) = -1#11
  · dsimp only
    rw [if_pos hexp]
    refine iff_of_false ?_ (not_not.mpr hexp)
    by_cases hmant : unpackMantissa (UnpackedFloat.pack .binary64 u) = 0#52
    · rw [if_pos hmant]
      exact Bool.false_ne_true
    · rw [if_neg hmant]
      exact Bool.false_ne_true
  · dsimp only
    rw [if_neg hexp]
    refine iff_of_true ?_ hexp
    by_cases hzero : unpackExponent (UnpackedFloat.pack .binary64 u) = 0#11
    · rw [if_pos hzero]
      by_cases hmant : unpackMantissa (UnpackedFloat.pack .binary64 u) = 0#52
      · rw [dif_pos hmant]
        rfl
      · rw [dif_neg hmant]
        dsimp only
        split <;> rfl
    · rw [if_neg hzero]
      dsimp only
      split <;> rfl

theorem overflows_finite (s : Sign) (m : Nat) (e : Int) (hm : 0 < m) : Overflows (.finite s m e hm) ↔ 972 ≤ e := by
  have hbias : (e + (Format.binary64.exponentBias : Nat) + (Format.binary64.mantissaBitsWithoutImplicit : Nat)).toNat =
      (e + 1075).toNat := by
    have hsum : ((Format.binary64.exponentBias : Nat) : Int) + (Format.binary64.mantissaBitsWithoutImplicit : Nat) =
        1075 := rfl
    rw [Int.add_assoc, hsum]
  unfold Overflows UnpackedFloat.pack
  dsimp only
  rw [hbias]
  by_cases hlarge : 2 ^ Format.binary64.exponentBits ≤ (e + 1075).toNat + 1
  · rw [if_pos hlarge]
    have hbits : 2 ^ Format.binary64.exponentBits = 2048 := rfl
    exact iff_of_true (unpackExponent_packComponents s (-1#11) 0) (by omega)
  · rw [if_neg hlarge]
    have hbits : 2 ^ Format.binary64.exponentBits = 2048 := rfl
    refine iff_of_false ?_ (by omega)
    by_cases hnormal : m.log2 + 1 = Format.binary64.mantissaBits
    · rw [if_pos hnormal]
      intro hexp
      have hvalue := congrArg BitVec.toNat ((unpackExponent_packComponents s _ _).symm.trans hexp)
      have hmod : (BitVec.ofNat 11 (e + 1075).toNat).toNat = (e + 1075).toNat % 2048 := BitVec.toNat_ofNat _ _
      have htop : (-1#11).toNat = 2047 := by decide
      rw [hmod, htop] at hvalue
      omega
    · rw [if_neg hnormal]
      intro hexp
      exact absurd ((unpackExponent_packComponents s _ _).symm.trans hexp) (by decide)

theorem not_overflows_zero (s : Sign) : ¬ Overflows (.zero s) := fun h =>
  absurd ((unpackExponent_packComponents s 0#11 0#52).symm.trans h) (by decide)

theorem overflows_infinity (s : Sign) : Overflows (.infinity s) := unpackExponent_packComponents s (-1#11) 0#52

theorem overflows_nan : Overflows .notANumber := unpackExponent_packComponents .positive (-1#11) _

end Packing

section Rounding

-- The last bit that is shifted out, and whether one below it is set.
theorem repeat_shiftRight (m j : Nat) :
    (j + 1).repeat ExtendedMantissa.shiftRightOne ⟨m, false, false⟩ =
      ⟨m / 2 ^ (j + 1), m / 2 ^ j % 2 != 0, m % 2 ^ j != 0⟩ := by
  induction j with
  | zero => simp [Nat.repeat, ExtendedMantissa.shiftRightOne, Nat.mod_one]
  | succ j ih =>
      have hdiv : m / 2 ^ (j + 1) / 2 = m / 2 ^ (j + 2) := by rw [Nat.div_div_eq_div_mul, ← Nat.pow_succ]
      have hmod : m % 2 ^ (j + 1) = m % 2 ^ j + 2 ^ j * (m / 2 ^ j % 2) := Nat.mod_pow_succ
      have hpow : 0 < 2 ^ j := Nat.two_pow_pos j
      have hsticky : (m / 2 ^ j % 2 != 0 || m % 2 ^ j != 0) = (m % 2 ^ (j + 1) != 0) := by
        rw [hmod]
        rcases Nat.mod_two_eq_zero_or_one (m / 2 ^ j) with hbit | hbit
        · simp [hbit]
        · simp [hbit]
      rw [Nat.repeat, ih, ExtendedMantissa.shiftRightOne]
      dsimp only
      rw [hdiv, hsticky]

-- A mantissa that is shifted to the right and rounded.
def roundShift (m k : Nat) : Nat :=
  (k.repeat ExtendedMantissa.shiftRightOne ⟨m, false, false⟩).roundedMantissa

theorem roundShift_succ (m j : Nat) :
    roundShift m (j + 1) = m / 2 ^ (j + 1) + (if m / 2 ^ j % 2 = 0 then 0
      else if m % 2 ^ j = 0 then m / 2 ^ (j + 1) % 2 else 1) := by
  rw [roundShift, repeat_shiftRight, ExtendedMantissa.roundedMantissa]
  by_cases hbit : m / 2 ^ j % 2 = 0
  · have hround : (m / 2 ^ j % 2 != 0) = false := bne_eq_false_iff_eq.mpr hbit
    rw [hround, if_pos hbit]
    cases m % 2 ^ j != 0 <;> rfl
  · have hround : (m / 2 ^ j % 2 != 0) = true := bne_iff_ne.mpr hbit
    rw [hround, if_neg hbit]
    by_cases hrest : m % 2 ^ j = 0
    · have hsticky : (m % 2 ^ j != 0) = false := bne_eq_false_iff_eq.mpr hrest
      rw [hsticky, if_pos hrest]
      rfl
    · have hsticky : (m % 2 ^ j != 0) = true := bne_iff_ne.mpr hrest
      rw [hsticky, if_neg hrest]
      rfl

theorem le_roundShift (m k : Nat) : m / 2 ^ k ≤ roundShift m k := by
  cases k with
  | zero =>
      rw [Nat.pow_zero, Nat.div_one]
      exact Nat.le_refl m
  | succ j =>
      rw [roundShift_succ]
      exact Nat.le_add_right _ _

-- Rounding fills up the next bit from half a step below it on.
theorem le_roundShift_iff (m k : Nat) (h : m / 2 ^ k < 2 ^ 53) :
    2 ^ 53 ≤ roundShift m k ↔ (2 ^ 54 - 1) * 2 ^ k ≤ 2 * m := by
  cases k with
  | zero =>
      have hround : roundShift m 0 = m := rfl
      rw [Nat.pow_zero, Nat.div_one] at h
      rw [hround, Nat.pow_zero]
      omega
  | succ j =>
      have hhalf : (2 ^ 54 - 1) * 2 ^ (j + 1) ≤ 2 * m ↔ 2 ^ 54 - 1 ≤ m / 2 ^ j := by
        rw [Nat.le_div_iff_mul_le (Nat.two_pow_pos j), Nat.pow_succ]
        omega
      have hdiv : m / 2 ^ (j + 1) = m / 2 ^ j / 2 := by rw [Nat.div_div_eq_div_mul, ← Nat.pow_succ]
      rw [hhalf, roundShift_succ]
      rw [hdiv] at h ⊢
      generalize m / 2 ^ j = p at h ⊢
      split
      · omega
      · split <;> omega

-- The exponent of a mantissa of 53 bits.
theorem targetExponent_eq (m : Nat) (e : Int) :
    Format.binary64.targetExponent (totalExponent m e) = max ((m.log2 : Int) + 1 + e - 53) (-1074) := rfl

theorem roundShift_le (m k : Nat) (h : m / 2 ^ k < 2 ^ 53) : roundShift m k ≤ 2 ^ 53 := by
  cases k with
  | zero =>
      rw [Nat.pow_zero, Nat.div_one] at h
      exact h.le
  | succ j =>
      rw [roundShift_succ]
      split
      · omega
      · split <;> omega

theorem quotient_lt (m k : Nat) (h : m.log2 + 1 ≤ 53 + k) : m / 2 ^ k < 2 ^ 53 := by
  rw [Nat.div_lt_iff_lt_mul (Nat.two_pow_pos k), ← Nat.pow_add]
  exact Nat.lt_log2_self.trans_le (Nat.pow_le_pow_right (by decide) h)

-- What is rounded fits, unless its exponent is too large or the carry makes it so.
theorem overflows_round_iff (s : Sign) (m k : Nat) (e : Int)
    (hk : (k : Int) + e = max ((m.log2 : Int) + 1 + e - 53) (-1074)) :
    Overflows (roundWithAccuracy .binary64 s m e .exact) ↔
      0 < roundShift m k ∧ (972 ≤ k + e ∨ (971 ≤ k + e ∧ 2 ^ 53 ≤ roundShift m k)) := by
  have hshift : ∀ (n j : Nat) (d : Int), (max ((n.log2 : Int) + 1 + d - 53) (-1074) - d).toNat = j →
      shiftToTargetExponent .binary64 n d .exact =
        (j.repeat ExtendedMantissa.shiftRightOne ⟨n, false, false⟩, d + j) := by
    intro n j d hj
    unfold shiftToTargetExponent shiftToExponent
    rw [targetExponent_eq]
    dsimp only
    rw [hj]
    rfl
  have hfits := roundShift_le m k (quotient_lt m k (by omega))
  have hround : ((k.repeat ExtendedMantissa.shiftRightOne ⟨m, false, false⟩).roundedMantissa) = roundShift m k := rfl
  unfold roundWithAccuracy
  rw [hshift m k e (by omega)]
  dsimp only
  rw [hround]
  generalize roundShift m k = n at hfits ⊢
  by_cases htop : n = 2 ^ 53
  · have hlog : n.log2 = 53 := by
      rw [htop]
      exact Nat.log2_two_pow
    have hcarry : ((1 : Nat).repeat ExtendedMantissa.shiftRightOne ⟨n, false, false⟩).mantissa = 2 ^ 52 := by
      rw [htop]
      rfl
    rw [hshift n 1 (e + k) (by omega)]
    dsimp only
    rw [hcarry, dif_neg (by decide), overflows_finite]
    omega
  · have hlog : n.log2 ≤ 52 := by
      by_cases hzero : n = 0
      · rw [hzero]
        decide
      · have hlt := (Nat.log2_lt hzero).mpr (show n < 2 ^ 53 by omega)
        omega
    rw [hshift n 0 (e + k) (by omega)]
    dsimp only
    have hsame : ((0 : Nat).repeat ExtendedMantissa.shiftRightOne ⟨n, false, false⟩).mantissa = n := rfl
    rw [hsame]
    by_cases hzero : n = 0
    · rw [dif_pos hzero]
      exact iff_of_false (not_overflows_zero s) (by omega)
    · rw [dif_neg hzero, overflows_finite]
      omega

-- The place of a mantissa among the powers of two, with half a step of 53 bits below one of them.
theorem threshold_cases (m k : Nat) (e c : Int) (hm : 0 < m)
    (hk : (k : Int) + e = max ((m.log2 : Int) + 1 + e - 53) (-1074)) (hc : -1074 ≤ c) :
    (2 ^ 54 - 1) * (2 : ℚ) ^ c ≤ m * 2 ^ e ↔
      c + 2 ≤ k + e ∨ (c + 1 ≤ k + e ∧ (2 ^ 54 - 1) * 2 ^ k ≤ 2 * m) := by
  have hpos : (0 : ℚ) < 2 ^ e := zpow_pos (by norm_num) e
  have hlow : (2 : ℚ) ^ ((m.log2 : Int) + e) ≤ m * 2 ^ e := by
    have hpow : ((2 ^ m.log2 : Nat) : ℚ) ≤ m := Nat.cast_le.mpr (Nat.log2_self_le (Nat.ne_of_gt hm))
    rw [zpow_add₀ (by norm_num), zpow_natCast]
    push_cast at hpow
    exact mul_le_mul_of_nonneg_right hpow hpos.le
  have hhigh : m * (2 : ℚ) ^ e < 2 ^ ((m.log2 : Int) + 1 + e) := by
    have hpow : (m : ℚ) < ((2 ^ (m.log2 + 1) : Nat) : ℚ) := Nat.cast_lt.mpr Nat.lt_log2_self
    rw [zpow_add₀ (by norm_num), ← Nat.cast_one, ← Nat.cast_add, zpow_natCast]
    push_cast at hpow
    exact mul_lt_mul_of_pos_right hpow hpos
  have hcpos : (0 : ℚ) < 2 ^ c := zpow_pos (by norm_num) c
  have hshift : ∀ d : ℕ, (2 : ℚ) ^ (c + d) = 2 ^ d * 2 ^ c := by
    intro d
    rw [zpow_add₀ (by norm_num), zpow_natCast, mul_comm]
  rcases lt_trichotomy ((k : Int) + e) (c + 1) with hsmall | heq | hlarge
  · have hbound : (2 : ℚ) ^ ((m.log2 : Int) + 1 + e) ≤ 2 ^ (c + (53 : ℕ)) :=
      zpow_le_zpow_right₀ (by norm_num) (by push_cast; omega)
    have hhalf : (2 : ℚ) ^ 53 * 2 ^ c ≤ (2 ^ 54 - 1) * 2 ^ c := mul_le_mul_of_nonneg_right (by norm_num) hcpos.le
    rw [hshift] at hbound
    exact iff_of_false (not_le.mpr ((hhigh.trans_le hbound).trans_le hhalf)) (by omega)
  · have hvalue : (m : ℚ) * 2 ^ e * 2 ^ k = 2 * m * 2 ^ c := by
      have hpow : (2 : ℚ) ^ e * 2 ^ k = 2 * 2 ^ c := by
        rw [← zpow_natCast, ← zpow_add₀ (by norm_num), show e + (k : Int) = 1 + c by omega,
          zpow_add₀ (by norm_num), zpow_one]
      rw [mul_assoc, hpow]
      ring
    have hscaled : (2 ^ 54 - 1) * (2 : ℚ) ^ c ≤ m * 2 ^ e ↔ (2 ^ 54 - 1) * (2 : ℚ) ^ k ≤ 2 * m := by
      rw [← mul_le_mul_iff_left₀ (show (0 : ℚ) < 2 ^ k by positivity), hvalue, mul_right_comm,
        mul_le_mul_iff_left₀ hcpos]
    have hcast : (2 ^ 54 - 1) * (2 : ℚ) ^ k ≤ 2 * m ↔ (2 ^ 54 - 1) * 2 ^ k ≤ 2 * m := by
      rw [← Nat.cast_le (α := ℚ)]
      norm_num
    rw [hscaled, hcast]
    omega
  · have hbound : (2 : ℚ) ^ (c + (54 : ℕ)) ≤ 2 ^ ((m.log2 : Int) + e) :=
      zpow_le_zpow_right₀ (by norm_num) (by push_cast; omega)
    have hhalf : (2 ^ 54 - 1) * (2 : ℚ) ^ c ≤ 2 ^ 54 * 2 ^ c := mul_le_mul_of_nonneg_right (by norm_num) hcpos.le
    rw [hshift] at hbound
    exact iff_of_true ((hhalf.trans hbound).trans hlow) (.inl (by omega))

-- A number overflows from the threshold on, when its exponent need not be lowered.
theorem overflows_roundWithAccuracy (s : Sign) (m : Nat) (e : Int) (hm : 0 < m)
    (h : e ≤ max ((m.log2 : Int) + 1 + e - 53) (-1074)) :
    Overflows (roundWithAccuracy .binary64 s m e .exact) ↔ overflowThreshold ≤ m * 2 ^ e := by
  obtain ⟨k, hk⟩ : ∃ k : Nat, (k : Int) + e = max ((m.log2 : Int) + 1 + e - 53) (-1074) :=
    ⟨(max ((m.log2 : Int) + 1 + e - 53) (-1074) - e).toNat, by omega⟩
  have hkept : 971 ≤ k + e → 0 < roundShift m k := by
    intro hlarge
    have hpow : 2 ^ k ≤ m := (Nat.pow_le_pow_right (by decide) (by omega)).trans (Nat.log2_self_le (Nat.ne_of_gt hm))
    exact (Nat.div_pos hpow (Nat.two_pow_pos k)).trans_le (le_roundShift m k)
  rw [overflows_round_iff s m k e hk, overflowThreshold_eq, threshold_cases m k e 970 hm hk (by decide),
    ← le_roundShift_iff m k (quotient_lt m k (by omega))]
  omega

theorem overflows_round (s : Sign) (m : Nat) (e : Int) (hm : 0 < m) :
    Overflows (UnpackedFloat.round .binary64 s m e) ↔ overflowThreshold ≤ m * 2 ^ e := by
  obtain ⟨j, hj⟩ : ∃ j : Nat, (e - max ((m.log2 : Int) + 1 + e - 53) (-1074)).toNat = j := ⟨_, rfl⟩
  have hround : UnpackedFloat.round .binary64 s m e =
      roundWithAccuracy .binary64 s (m * 2 ^ j) (e - j) .exact := by
    unfold UnpackedFloat.round decreaseExponent
    rw [targetExponent_eq]
    dsimp only
    rw [hj, Nat.shiftLeft_eq]
  have hlog : (m * 2 ^ j).log2 = m.log2 + j := log2_mul_two_pow m j hm
  have hvalue : ((m * 2 ^ j : Nat) : ℚ) * 2 ^ (e - j : Int) = m * 2 ^ e := by
    have hpow : (2 : ℚ) ^ e = 2 ^ j * 2 ^ (e - j : Int) := by
      rw [← zpow_natCast, ← zpow_add₀ (by norm_num), add_sub_cancel (j : Int) e]
    rw [hpow, ← mul_assoc]
    push_cast
    rfl
  rw [hround, overflows_roundWithAccuracy s _ _ (Nat.mul_pos hm (Nat.two_pow_pos j)) (by omega), hvalue]

theorem overflows_normalize (m e : Int) :
    Overflows (UnpackedFloat.normalize .binary64 m e .positive) ↔ overflowThreshold ≤ |(m : ℚ) * 2 ^ e| := by
  have hpow : (0 : ℚ) < 2 ^ e := zpow_pos (by norm_num) e
  have habs : |(m : ℚ) * 2 ^ e| = (m.natAbs : ℚ) * 2 ^ e := by
    rw [abs_mul, abs_of_pos hpow, Nat.cast_natAbs, Int.cast_abs]
  rw [habs]
  unfold UnpackedFloat.normalize
  split
  · next hneg =>
      rw [compare_lt_iff_lt] at hneg
      have hsize : (-m).toNat = m.natAbs := by omega
      rw [hsize]
      exact overflows_round _ _ _ (by omega)
  · next hzero =>
      rw [compare_eq_iff_eq] at hzero
      rw [hzero, Int.natAbs_zero, Nat.cast_zero, zero_mul]
      exact iff_of_false (not_overflows_zero _) (not_le.mpr overflowThreshold_pos)
  · next hpos =>
      rw [compare_gt_iff_gt] at hpos
      have hsize : m.toNat = m.natAbs := by omega
      rw [hsize]
      exact overflows_round _ _ _ (by omega)

end Rounding

section Sums

-- Two mantissas are added on the scale of the smaller exponent.
theorem add_finite (s t : Sign) (m n : Nat) (e d : Int) (hm : 0 < m) (hn : 0 < n) :
    ∃ c : Int, UnpackedFloat.add .binary64 (.finite s m e hm) (.finite t n d hn) =
        UnpackedFloat.normalize .binary64 c (min e d) .positive ∧
      (c : ℚ) * 2 ^ (min e d) = (s.apply m : Int) * 2 ^ e + (t.apply n : Int) * 2 ^ d := by
  have hscale : ∀ (c : Int) (i : Nat), c - i = min e d → (2 : ℚ) ^ c = 2 ^ i * 2 ^ (min e d) := by
    intro c i hc
    rw [← hc, ← zpow_natCast, ← zpow_add₀ (by norm_num), add_sub_cancel (i : Int) c]
  have happly : ∀ (r : Sign) (p j : Nat), r.apply ((p * 2 ^ j : Nat) : Int) = r.apply p * 2 ^ j := by
    intro r p j
    cases r with
    | negative => simp [Sign.apply]
    | positive => simp [Sign.apply]
  refine ⟨s.apply ((m * 2 ^ (e - min e d).toNat : Nat) : Int) + t.apply ((n * 2 ^ (d - min e d).toNat : Nat) : Int), ?_,
    ?_⟩
  · simp only [UnpackedFloat.add, decreaseExponent, Nat.shiftLeft_eq]
  · rw [hscale e (e - min e d).toNat (by omega), hscale d (d - min e d).toNat (by omega), happly, happly]
    push_cast
    ring

theorem isFinite_iff (x : Float) : Json.isFinite x = true ↔
    (∃ s, x.toModel.unpack = .zero s) ∨ ∃ s m e hm, x.toModel.unpack = .finite s m e hm := by
  unfold Json.isFinite exactDecimal
  cases hu : x.toModel.unpack with
  | zero s => simp
  | infinity s => simp
  | notANumber => simp
  | finite s m e hm =>
      refine iff_of_true ?_ (.inr ⟨s, m, e, hm, rfl⟩)
      dsimp only
      split <;> rfl

theorem add_eq_pack (x y : Float) :
    x + y = .ofModel (.pack (UnpackedFloat.add .binary64 x.toModel.unpack y.toModel.unpack)) := rfl

theorem abs_exactRatio_lt (x : Float) : |exactRatio x| < overflowThreshold :=
  (abs_exactRatio_le x).trans_lt exactRatio_lt_threshold

-- The sum of two finite values is finite when their exact sum is below the threshold.
theorem isFinite_add_iff (x y : Float) (hx : Json.isFinite x = true) (hy : Json.isFinite y = true) :
    Json.isFinite (x + y) = true ↔ |exactRatio x + exactRatio y| < overflowThreshold := by
  rw [add_eq_pack]
  rcases (isFinite_iff x).mp hx with ⟨s, hu⟩ | ⟨s, m, e, hm, hu⟩
  · rw [exactRatio_zero x s hu, zero_add]
    refine iff_of_true ?_ (abs_exactRatio_lt y)
    rcases (isFinite_iff y).mp hy with ⟨t, hv⟩ | ⟨t, n, d, hn, hv⟩
    · rw [hu, hv, isFinite_pack]
      cases s <;> cases t <;> exact not_overflows_zero _
    · have hsame : UnpackedFloat.add .binary64 x.toModel.unpack y.toModel.unpack = y.toModel.unpack := by
        rw [hu, hv]
        rfl
      rw [hsame, ofModel_pack_unpack]
      exact hy
  · rcases (isFinite_iff y).mp hy with ⟨t, hv⟩ | ⟨t, n, d, hn, hv⟩
    · have hsame : UnpackedFloat.add .binary64 x.toModel.unpack y.toModel.unpack = x.toModel.unpack := by
        rw [hu, hv]
        rfl
      rw [hsame, ofModel_pack_unpack, exactRatio_zero y t hv, add_zero]
      exact iff_of_true hx (abs_exactRatio_lt x)
    · rw [hu, hv, isFinite_pack, exactRatio_finite x s m e hm hu, exactRatio_finite y t n d hn hv, ← not_le,
        not_iff_not]
      obtain ⟨c, hsum, hvalue⟩ := add_finite s t m n e d hm hn
      rw [hsum, overflows_normalize, hvalue]

theorem add_infinity (u : UnpackedFloat) (t : Sign) :
    (∃ s, UnpackedFloat.add .binary64 u (.infinity t) = .infinity s) ∨
      UnpackedFloat.add .binary64 u (.infinity t) = .notANumber := by
  cases u with
  | infinity s =>
      cases s <;> cases t
      · exact .inl ⟨.negative, rfl⟩
      · exact .inr rfl
      · exact .inr rfl
      · exact .inl ⟨.positive, rfl⟩
  | notANumber => exact .inr rfl
  | zero s => exact .inl ⟨t, rfl⟩
  | finite s m e hm => exact .inl ⟨t, rfl⟩

theorem add_notANumber (u : UnpackedFloat) : UnpackedFloat.add .binary64 u .notANumber = .notANumber := by
  cases u <;> rfl

-- A sum with an infinity or a NaN is one as well.
theorem not_isFinite_add (x y : Float) (hy : Json.isFinite y = false) : Json.isFinite (x + y) = false := by
  rw [Bool.eq_false_iff, ne_eq, add_eq_pack, isFinite_pack, not_not]
  cases hv : y.toModel.unpack with
  | infinity t =>
      rcases add_infinity x.toModel.unpack t with ⟨s, hsum⟩ | hsum
      · rw [hsum]
        exact overflows_infinity s
      · rw [hsum]
        exact overflows_nan
  | notANumber =>
      rw [add_notANumber]
      exact overflows_nan
  | zero t =>
      rw [(isFinite_iff y).mpr (.inl ⟨t, hv⟩)] at hy
      cases hy
  | finite t n d hn =>
      rw [(isFinite_iff y).mpr (.inr ⟨t, n, d, hn, hv⟩)] at hy
      cases hy

end Sums

section Readings

theorem PyNum.value_float (x : Float) (h : Json.isFinite x = true) :
    (PyNum.float x).value = some ((exactRatio x : WithTop ℚ) : WithBot (WithTop ℚ)) := by
  obtain ⟨d, hd⟩ := Option.isSome_iff_exists.mp h
  rw [PyNum.value, exactRatio, hd]
  rfl

theorem exactRatio_nonneg (x : Float) (hx : Json.isFinite x = true) (h : (PyNum.float x).lt (.int 0) = false) :
    0 ≤ exactRatio x := by
  by_contra hneg
  have hlt : (PyNum.float x).lt (.int 0) = true :=
    (PyNum.lt_iff _ _).mpr ⟨_, _, PyNum.value_float x hx, rfl, by exact_mod_cast not_le.mp hneg⟩
  rw [hlt] at h
  cases h

-- A sum of finite values that overflows is positive when the second one is not negative.
theorem isUnsigned_add_finite (x y : Float) (hx : Json.isFinite x = true) (hy : Json.isFinite y = true)
    (hnonneg : 0 ≤ exactRatio y) (h : Json.isFinite (x + y) = false) : IsUnsigned (x + y) := by
  have hlarge : overflowThreshold ≤ |exactRatio x + exactRatio y| := by
    by_contra hsmall
    rw [(isFinite_add_iff x y hx hy).mpr (not_le.mp hsmall)] at h
    cases h
  have hpos : 0 < exactRatio x + exactRatio y := by
    have hlow := (abs_lt.mp (abs_exactRatio_lt x)).1
    rcases le_abs.mp hlarge with hle | hle
    · exact overflowThreshold_pos.trans_le hle
    · linarith
  rcases (isFinite_iff x).mp hx with ⟨s, hu⟩ | ⟨s, m, e, hm, hu⟩
  · rw [exactRatio_zero x s hu, zero_add] at hlarge
    exact absurd (abs_exactRatio_lt y) (not_lt.mpr hlarge)
  · rcases (isFinite_iff y).mp hy with ⟨t, hv⟩ | ⟨t, n, d, hn, hv⟩
    · rw [exactRatio_zero y t hv, add_zero] at hlarge
      exact absurd (abs_exactRatio_lt x) (not_lt.mpr hlarge)
    · obtain ⟨c, hsum, hvalue⟩ := add_finite s t m n e d hm hn
      rw [exactRatio_finite x s m e hm hu, exactRatio_finite y t n d hn hv, ← hvalue] at hpos
      have hc : (0 : ℚ) < c := pos_of_mul_pos_left hpos (zpow_nonneg (by norm_num) _)
      rw [add_eq_pack, hu, hv, hsum]
      exact isUnsigned_pack _ (normalize_positive c _ (by exact_mod_cast hc.le))

-- A value that is added to a finite one and is not negative makes no negative infinity.
theorem isUnsigned_overflow (x y : Float) (hx : Json.isFinite x = true)
    (hy : (PyNum.float y).lt (.int 0) = false) (h : Json.isFinite (x + y) = false) : IsUnsigned (x + y) := by
  cases hv : y.toModel.unpack with
  | notANumber =>
      rw [add_eq_pack, hv, add_notANumber]
      exact isUnsigned_pack _ trivial
  | infinity t =>
      cases t with
      | negative =>
          have hlt : (PyNum.float y).lt (.int 0) = true :=
            (PyNum.lt_iff _ _).mpr ⟨⊥, _, by simp [PyNum.value, exactDecimal, hv], rfl, by simp⟩
          rw [hlt] at hy
          cases hy
      | positive =>
          rw [add_eq_pack, hv]
          rcases (isFinite_iff x).mp hx with ⟨s, hu⟩ | ⟨s, m, e, hm, hu⟩
          · rw [hu]
            exact isUnsigned_pack _ rfl
          · rw [hu]
            exact isUnsigned_pack _ rfl
  | zero t =>
      have hfinite := (isFinite_iff y).mpr (.inl ⟨t, hv⟩)
      exact isUnsigned_add_finite x y hx hfinite (exactRatio_nonneg y hfinite hy) h
  | finite t n d hn =>
      have hfinite := (isFinite_iff y).mpr (.inr ⟨t, n, d, hn, hv⟩)
      exact isUnsigned_add_finite x y hx hfinite (exactRatio_nonneg y hfinite hy) h

namespace PyNum

theorem isReal_float (x : Float) : (PyNum.float x).IsReal ↔ Json.isFinite x = true := by
  constructor
  · rintro ⟨q, hq⟩
    by_contra hinfinite
    have hnone : exactDecimal x = none := by simpa [Json.isFinite] using hinfinite
    rw [value, hnone] at hq
    dsimp only at hq
    split at hq
    · simp at hq
    · simp at hq
    · cases hq
  · intro h
    exact ⟨exactRatio x, value_float x h⟩

theorem isReal_int (n : Int) : (PyNum.int n).IsReal := ⟨n, rfl⟩

theorem isReal_iff_toFloat (a : PyNum) (x : Float) (h : a.toFloat = .ok x) : a.IsReal ↔ Json.isFinite x = true := by
  cases a with
  | float y =>
      obtain rfl := Except.ok.inj h
      exact isReal_float y
  | int n =>
      rw [toFloat] at h
      split at h
      · next hfinite =>
          obtain rfl := Except.ok.inj h
          exact iff_of_true (isReal_int n) hfinite
      · cases h

theorem add_eq_ok (a b sum : PyNum) (h : a.add b = .ok sum) :
    (∃ m n, a = .int m ∧ b = .int n ∧ sum = .int (m + n)) ∨
    ((¬ ∃ m n, a = .int m ∧ b = .int n) ∧
      ∃ x y, a.toFloat = .ok x ∧ b.toFloat = .ok y ∧ sum = .float (x + y)) := by
  have hfloats : ∀ c d : PyNum, (do let x ← c.toFloat; let y ← d.toFloat; .ok (.float (x + y))) = Except.ok sum →
      ∃ x y, c.toFloat = .ok x ∧ d.toFloat = .ok y ∧ sum = .float (x + y) := by
    intro c d hsum
    obtain ⟨x, hx, hsum⟩ := (bind_eq_ok _ _ _).mp hsum
    obtain ⟨y, hy, hsum⟩ := (bind_eq_ok _ _ _).mp hsum
    exact ⟨x, y, hx, hy, (Except.ok.inj hsum).symm⟩
  cases a with
  | float x =>
      refine .inr ⟨?_, hfloats _ _ h⟩
      rintro ⟨m, n, ha, -⟩
      cases ha
  | int m =>
      cases b with
      | float y =>
          refine .inr ⟨?_, hfloats _ _ h⟩
          rintro ⟨m, n, -, hb⟩
          cases hb
      | int n => exact .inl ⟨m, n, rfl, rfl, (Except.ok.inj h).symm⟩

-- Ints have a sum of any size. Otherwise the sum is that of two floats and has to
-- be below the threshold.
def SumInRange (a b : PyNum) : Prop :=
  (∃ m n, a = .int m ∧ b = .int n) ∨
    (b.IsReal ∧ ∀ x y, a.toFloat = .ok x → b.toFloat = .ok y → |exactRatio x + exactRatio y| < overflowThreshold)

theorem isReal_add_iff (a b sum : PyNum) (ha : a.IsReal) (h : a.add b = .ok sum) : sum.IsReal ↔ SumInRange a b := by
  rcases add_eq_ok a b sum h with ⟨m, n, rfl, rfl, rfl⟩ | ⟨hints, x, y, hx, hy, rfl⟩
  · exact iff_of_true (isReal_int _) (.inl ⟨m, n, rfl, rfl⟩)
  · have hfinite := (isReal_iff_toFloat a x hx).mp ha
    rw [isReal_float, SumInRange, isReal_iff_toFloat b y hy]
    constructor
    · intro hsum
      have hy' : Json.isFinite y = true := by
        by_contra hinfinite
        rw [not_isFinite_add x y (Bool.eq_false_iff.mpr hinfinite)] at hsum
        cases hsum
      refine .inr ⟨hy', fun u v hu hv => ?_⟩
      obtain rfl := Except.ok.inj (hx.symm.trans hu)
      obtain rfl := Except.ok.inj (hy.symm.trans hv)
      exact (isFinite_add_iff x y hfinite hy').mp hsum
    · rintro (hboth | ⟨hy', hbound⟩)
      · exact absurd hboth hints
      · exact (isFinite_add_iff x y hfinite hy').mpr (hbound x y hx hy)

theorem toFloat_not_negative (a : PyNum) (x : Float) (h : a.toFloat = .ok x) (hpos : a.le (.int 0) = false) :
    (PyNum.float x).lt (.int 0) = false := by
  cases a with
  | float y =>
      obtain rfl := Except.ok.inj h
      by_contra hlt
      obtain ⟨p, q, hp, hq, hpq⟩ := (lt_iff _ _).mp (Bool.not_eq_false _ ▸ hlt)
      rw [(le_iff _ _).mpr ⟨p, q, hp, hq, hpq.le⟩] at hpos
      cases hpos
  | int n =>
      have hn : 0 < n := by
        by_contra hle
        have hnum : (PyNum.int n).le (.int 0) = true :=
          (le_iff _ _).mpr ⟨_, _, rfl, rfl, by exact_mod_cast not_lt.mp hle⟩
        rw [hnum] at hpos
        cases hpos
      rw [toFloat, decide_eq_false (not_lt.mpr hn.le)] at h
      split at h
      · obtain rfl := Except.ok.inj h
        exact (isUnsigned_decimal _ _).lt_zero
      · cases h

-- A real number and one that is not negative make no negative infinity.
theorem add_not_negative (a b sum : PyNum) (ha : a.IsReal) (hb : b.le (.int 0) = false) (h : a.add b = .ok sum) :
    sum.IsReal ∨ sum.lt (.int 0) = false := by
  rcases add_eq_ok a b sum h with ⟨m, n, rfl, rfl, rfl⟩ | ⟨-, x, y, hx, hy, rfl⟩
  · exact .inl (isReal_int _)
  · cases hsum : Json.isFinite (x + y) with
    | true => exact .inl ((isReal_float _).mpr hsum)
    | false =>
        have hfinite := (isReal_iff_toFloat a x hx).mp ha
        exact .inr (isUnsigned_overflow x y hfinite (toFloat_not_negative b y hy hb) hsum).lt_zero

theorem isReal_of_le (a b : PyNum) (hb : b.IsReal) (hle : a.le b = true) (ha : a.IsReal ∨ a.lt (.int 0) = false) :
    a.IsReal := by
  rcases ha with ha | ha
  · exact ha
  · obtain ⟨p, q, hp, hq, hpq⟩ := (le_iff a b).mp hle
    obtain ⟨r, hr⟩ := hb
    obtain rfl := Option.some.inj (hq.symm.trans hr)
    cases p with
    | bot =>
        have hlt : a.lt (.int 0) = true := (lt_iff _ _).mpr ⟨_, _, hp, rfl, bot_lt_iff_ne_bot.mpr (by simp)⟩
        rw [hlt] at ha
        cases ha
    | coe p =>
        have hp' : p ≤ (r : WithTop ℚ) := WithBot.coe_le_coe.mp hpq
        obtain ⟨v, rfl⟩ := WithTop.ne_top_iff_exists.mp (ne_top_of_le_ne_top WithTop.coe_ne_top hp')
        exact ⟨v, hp⟩

end PyNum

end Readings

end V91Core.Python
