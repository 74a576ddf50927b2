import Mathlib

namespace V91Core.Python

open Float.Model Float.Model.UnpackedFloat

theorem toBitVec_ofBitVec (b : BitVec 1) : (Sign.ofBitVec b).toBitVec = b := by
  revert b; decide

theorem packComponents_fields (b : BitVec Format.binary64.numBits) :
    packComponents .binary64 (Sign.ofBitVec (unpackSign b)) (unpackExponent b) (unpackMantissa b) = b := by
  unfold packComponents unpackSign unpackExponent unpackMantissa
  rw [toBitVec_ofBitVec]
  ext i hi
  grind [BitVec.extractLsb]

-- The significands and exponents of the binary64 format.
def Canonical (m : Nat) (e : Int) : Prop :=
  (m.log2 = 52 ∧ -1074 ≤ e ∧ e ≤ 971) ∨ (m.log2 < 52 ∧ e = -1074)

theorem log2_implicit (f : BitVec 52) :
    (1#1 ++ f).toNat = 2 ^ 52 + f.toNat ∧ (1#1 ++ f).toNat.log2 = 52 := by
  have hf := f.isLt
  have he : (1#1 ++ f).toNat = 2 ^ 52 + f.toNat := by
    rw [BitVec.toNat_append, BitVec.toNat_one, Nat.one_shiftLeft, Nat.or_comm, Nat.or_two_pow_eq_add_of_lt hf,
      Nat.add_comm]
    omega
  refine ⟨he, ?_⟩
  rw [he, Nat.log2_eq_iff (by omega)]
  omega

theorem unpack_finite (b : BitVec Format.binary64.numBits) (s : Sign) (m : Nat) (e : Int) (hm : 0 < m)
    (h : UnpackedFloat.unpack .binary64 b = .finite s m e hm) :
    UnpackedFloat.pack .binary64 (.finite s m e hm) = b ∧ Canonical m e := by
  have hb := packComponents_fields b
  have hexp : (unpackExponent b).toNat < 2 ^ 11 := (unpackExponent b).isLt
  have hmant : (unpackMantissa b).toNat < 2 ^ 52 := (unpackMantissa b).isLt
  rw [UnpackedFloat.unpack] at h
  split at h
  · split at h <;> cases h
  rename_i hinf
  have hinf' : (unpackExponent b).toNat ≠ 2 ^ 11 - 1 :=
    fun he => hinf (BitVec.toNat_inj.mp (by simpa using he))
  split at h
  · rename_i hz
    split at h
    · cases h
    · obtain ⟨rfl, rfl, rfl⟩ := UnpackedFloat.finite.inj h
      have hlog : (unpackMantissa b).toNat.log2 < 52 := (Nat.log2_lt (by omega)).mpr hmant
      rw [hz] at hb ⊢
      refine ⟨?_, .inr ⟨hlog, by decide⟩⟩
      rw [UnpackedFloat.pack]
      simp only [show Format.binary64.mantissaBits = 53 from rfl]
      rw [if_neg (by decide), if_neg (by omega), BitVec.ofNat_toNat, BitVec.setWidth_eq]
      exact hb
  · rename_i hz
    have hz' : (unpackExponent b).toNat ≠ 0 := fun he => hz (BitVec.toNat_inj.mp (by simpa using he))
    obtain ⟨rfl, rfl, rfl⟩ := UnpackedFloat.finite.inj h
    obtain ⟨hval, hlog⟩ := log2_implicit (unpackMantissa b)
    simp only [show ((Format.binary64.exponentBias : Nat) : Int) = 1023 from rfl,
      show ((Format.binary64.mantissaBitsWithoutImplicit : Nat) : Int) = 52 from rfl]
    refine ⟨?_, .inl ⟨hlog, by omega, by omega⟩⟩
    rw [UnpackedFloat.pack]
    simp only [show Format.binary64.mantissaBits = 53 from rfl, hlog,
      show ((Format.binary64.exponentBias : Nat) : Int) = 1023 from rfl,
      show ((Format.binary64.mantissaBitsWithoutImplicit : Nat) : Int) = 52 from rfl,
      show (((unpackExponent b).toNat : Int) - (1023 + 52) + 1023 + 52).toNat =
        (unpackExponent b).toNat by omega]
    rw [if_neg (by omega), if_pos trivial, BitVec.ofNat_toNat, BitVec.setWidth_eq]
    have hmv : BitVec.ofNat 52 (1#1 ++ unpackMantissa b).toNat = unpackMantissa b := by
      apply BitVec.eq_of_toNat_eq
      rw [hval, BitVec.toNat_ofNat]
      omega
    rw [hmv]
    exact hb

theorem targetExponent_canonical (m : Nat) (e : Int) (h : Canonical m e) :
    Format.binary64.targetExponent (totalExponent m e) = e := by
  simp only [Format.targetExponent, totalExponent, show Format.binary64.mantissaBits = 53 from rfl,
    show Format.binary64.minExponent = -1074 from rfl]
  rcases h with ⟨hl, hlo, hhi⟩ | ⟨hl, rfl⟩ <;> omega

theorem log2_mul_two_pow (m j : Nat) (hm : 0 < m) : (m * 2 ^ j).log2 = m.log2 + j := by
  have hlo := Nat.log2_self_le (show m ≠ 0 by omega)
  have hhi := @Nat.lt_log2_self m
  have hp := Nat.two_pow_pos j
  rw [Nat.log2_eq_iff (Nat.mul_pos hm hp).ne', show m.log2 + j + 1 = m.log2 + 1 + j by omega, Nat.pow_add,
    Nat.pow_add (n := j)]
  exact ⟨Nat.mul_le_mul_right _ hlo, Nat.mul_lt_mul_of_pos_right hhi hp⟩

theorem repeat_shiftRightOne (m j : Nat) :
    j.repeat ExtendedMantissa.shiftRightOne ⟨m * 2 ^ j, false, false⟩ = ⟨m, false, false⟩ := by
  induction j generalizing m with
  | zero => simp [Nat.repeat]
  | succ j ih =>
      have hs : ExtendedMantissa.shiftRightOne ⟨m * 2, false, false⟩ = ⟨m, false, false⟩ := by
        simp [ExtendedMantissa.shiftRightOne]
      rw [Nat.repeat, show m * 2 ^ (j + 1) = m * 2 * 2 ^ j by ring, ih, hs]

theorem shift_exact (m j : Nat) (e : Int) (hm : 0 < m) (h : Canonical m e) :
    shiftToTargetExponent .binary64 (m * 2 ^ j) (e - j) .exact = (⟨m, false, false⟩, e) := by
  have ht : totalExponent (m * 2 ^ j) (e - j) = totalExponent m e := by
    simp only [totalExponent, log2_mul_two_pow m j hm]
    omega
  simp only [shiftToTargetExponent, ht, targetExponent_canonical m e h, shiftToExponent,
    show (e - (e - (j : Int))).toNat = j by omega, ExtendedMantissa.ofMantissaAndAccuracy]
  rw [show e - (j : Int) + j = e by omega]
  exact congrArg (·, e) (repeat_shiftRightOne m j)

theorem round_exact (s : Sign) (m j : Nat) (e : Int) (hm : 0 < m) (h : Canonical m e) :
    roundWithAccuracy .binary64 s (m * 2 ^ j) (e - j) .exact = .finite s m e hm := by
  have hs := shift_exact m 0 e hm h
  simp only [Nat.pow_zero, Nat.mul_one, Int.natCast_zero, Int.sub_zero] at hs
  have hr : ExtendedMantissa.roundedMantissa ⟨m, false, false⟩ = m := rfl
  simp only [roundWithAccuracy, shift_exact m j e hm h, hr, hs]
  rw [dif_neg (show ¬m = 0 by omega)]

theorem ofScientific_of_nonneg (m j : Nat) (hm : 0 < m) (h : Canonical m j) :
    ofScientific .binary64 (m * 2 ^ j) 0 = .finite .positive m j hm := by
  have hN : m * 2 ^ j ≠ 0 := (Nat.mul_pos hm (Nat.two_pow_pos j)).ne'
  have hr := round_exact .positive m (j + 53) j hm h
  have hsign : Sign.positive * Sign.positive = Sign.positive := rfl
  have hmant : m * 2 ^ j * 2 ^ 53 = m * 2 ^ (j + 53) := by ring
  rw [UnpackedFloat.ofScientific, dif_neg hN, if_neg (by decide), if_neg (by simp), if_pos (Int.le_refl _)]
  simp only [UnpackedFloat.mul, Int.toNat_zero, Nat.pow_zero, Nat.mul_one,
    show Format.binary64.mantissaBits = 53 from rfl, Nat.shiftLeft_eq, hsign, hmant]
  rw [← hr]
  congr 1
  omega

theorem ofScientific_of_neg (m k : Nat) (hm : 0 < m) (hk : 0 < k) (h : Canonical m (-k)) :
    ofScientific .binary64 (m * 5 ^ k) (-k) = .finite .positive m (-k) hm := by
  have hpos5 : 0 < 5 ^ k := Nat.pow_pos (by decide)
  have hN : m * 5 ^ k ≠ 0 := (Nat.mul_pos hm hpos5).ne'
  have hk' : k ≤ 1074 := by rcases h with ⟨_, h, _⟩ | ⟨_, h⟩ <;> omega
  -- the quotient has at least as many bits as the significand needs
  have hden : (10 ^ k).log2 = (5 ^ k).log2 + k := by
    rw [show 10 ^ k = 5 ^ k * 2 ^ k by rw [← Nat.mul_pow], log2_mul_two_pow _ _ hpos5]
  have hnum : (m * 5 ^ k).log2 ≤ 53 + (5 ^ k).log2 := by
    have hl : m.log2 < 53 := by rcases h with ⟨h, _, _⟩ | ⟨h, _⟩ <;> omega
    have h₁ : m < 2 ^ 53 := (Nat.log2_lt (by omega)).mp hl
    have h₂ := @Nat.lt_log2_self (5 ^ k)
    have h₃ : m * 5 ^ k < 2 ^ (53 + (5 ^ k).log2 + 1) := by
      rw [Nat.add_assoc, Nat.pow_add]
      exact Nat.mul_lt_mul'' h₁ h₂
    have := (Nat.log2_lt hN).mpr h₃
    omega
  rw [UnpackedFloat.ofScientific]
  rw [dif_neg hN, if_neg (by simp),
    if_neg (by simp; omega), if_neg (by omega)]
  simp only [UnpackedFloat.div, divCore, Int.neg_neg, Int.toNat_natCast]
  set T := min ((0 : Int) - 0) (Format.binary64.targetExponent
    (totalExponent (m * 5 ^ k) 0 - totalExponent (10 ^ k) 0)) with hT
  have hT' : T ≤ -k := by
    simp only [Format.targetExponent, totalExponent, show Format.binary64.mantissaBits = 53 from rfl,
      show Format.binary64.minExponent = -1074 from rfl] at hT
    omega
  obtain ⟨a, ha⟩ : ∃ a : Nat, T = -k - a := ⟨(-T - k).toNat, by omega⟩
  have hshift : ((0 : Int) - 0 - T).toNat = k + a := by omega
  have hmul : m * 5 ^ k * 2 ^ (k + a) = m * 2 ^ a * 10 ^ k := by
    rw [show (10 : Nat) ^ k = 2 ^ k * 5 ^ k by rw [← Nat.mul_pow], Nat.pow_add]
    ring
  rw [hshift, Nat.shiftLeft_eq, hmul, Nat.mul_mod_left, Nat.mul_div_cancel _ (Nat.pow_pos (by decide)), ha]
  exact round_exact _ m a (-k) hm h

-- `float(text)` for a decimal with the digits `m` and the exponent `e`.
def decimalToFloat (neg : Bool) (m : Nat) (e : Int) : Float :=
  let x := UnpackedFloat.ofScientific .binary64 m e
  .ofModel (.pack (if neg then x.neg else x))

-- A finite value is exactly its digits times a power of ten.
structure Decimal where
  neg : Bool
  digits : Nat
  exponent : Int
deriving DecidableEq

def isNegative : Sign → Bool
  | .negative => true
  | .positive => false

def exactDecimal (x : Float) : Option Decimal :=
  match x.toModel.unpack with
  | .finite sign m e _ =>
      if 0 ≤ e then some ⟨isNegative sign, m * 2 ^ e.toNat, 0⟩
      else some ⟨isNegative sign, m * 5 ^ (-e).toNat, e⟩
  | .zero sign => some ⟨isNegative sign, 0, 0⟩
  | _ => none

theorem ofModel_pack (x : Float) (u : UnpackedFloat)
    (h : UnpackedFloat.pack .binary64 u = x.toModel.toBits.toBitVec) :
    Float.ofModel (.pack u) = x := by
  have hbits : (Float.Model.pack u).toBits = x.toModel.toBits := by
    simp only [Float.Model.pack, h]
  have hmodel : ∀ a b : Float.Model, a.toBits = b.toBits → a = b := by
    rintro ⟨a, _⟩ ⟨b, _⟩ rfl
    rfl
  rw [hmodel _ _ hbits]

theorem pack_unpack (b : BitVec Format.binary64.numBits) (hv : Format.binary64.Valid b) :
    UnpackedFloat.pack .binary64 (UnpackedFloat.unpack .binary64 b) = b := by
  cases hu : UnpackedFloat.unpack .binary64 b with
  | finite s m e hm => exact (unpack_finite b s m e hm hu).1
  | _ =>
      have hb := packComponents_fields b
      rw [UnpackedFloat.unpack] at hu
      split at hu
      · rename_i hexp
        split at hu
        · rename_i hmant
          cases hu
          all_goals
            rw [hexp, hmant] at hb
            exact hb
        · rename_i hmant
          cases hu
          all_goals exact (hv.eq_packedNaN hexp hmant).symm
      split at hu
      · rename_i hexp
        split at hu
        · rename_i hmant
          cases hu
          all_goals
            rw [hexp, hmant] at hb
            exact hb
        · cases hu
      · cases hu

theorem ofModel_pack_unpack (x : Float) : Float.ofModel (.pack x.toModel.unpack) = x :=
  ofModel_pack x _ (pack_unpack _ x.toModel.valid)

theorem decimalToFloat_exact (x : Float) (d : Decimal) (h : exactDecimal x = some d) :
    decimalToFloat d.neg d.digits d.exponent = x := by
  unfold exactDecimal at h
  have hsigned : ∀ (s : Sign) (m : Nat) (e : Int) (hm : 0 < m),
      (if isNegative s then (UnpackedFloat.finite .positive m e hm).neg else .finite .positive m e hm) =
        .finite s m e hm := by
    intro s m e hm
    cases s <;> rfl
  split at h
  · rename_i s m e hm hu
    obtain ⟨hpack, hcan⟩ := unpack_finite _ s m e hm hu
    split at h <;> obtain rfl := Option.some.inj h <;> simp only [decimalToFloat]
    · obtain ⟨j, rfl⟩ := Int.eq_ofNat_of_zero_le ‹0 ≤ e›
      rw [Int.toNat_natCast, ofScientific_of_nonneg m j hm hcan, hsigned]
      exact ofModel_pack x _ hpack
    · obtain ⟨k, rfl⟩ : ∃ k : Nat, e = -k := ⟨(-e).toNat, by omega⟩
      rw [Int.neg_neg, Int.toNat_natCast, ofScientific_of_neg m k hm (by omega) hcan, hsigned]
      exact ofModel_pack x _ hpack
  · rename_i s hu
    obtain rfl := Option.some.inj h
    have hx := ofModel_pack_unpack x
    rw [hu] at hx
    rw [← hx]
    cases s <;> rfl
  · cases h

end V91Core.Python
