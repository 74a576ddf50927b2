import V91Core.Python.Numeric

namespace V91Core.Python

open Float.Model Float.Model.UnpackedFloat

-- A NaN has no sign.
def SignPositive : UnpackedFloat → Prop
  | .infinity s | .zero s | .finite s _ _ _ => s = .positive
  | .notANumber => True

section Operations

theorem roundWithAccuracy_positive (m : Nat) (e : Int) (accuracy : Accuracy) :
    SignPositive (roundWithAccuracy .binary64 .positive m e accuracy) := by
  unfold roundWithAccuracy
  dsimp only
  split <;> rfl

theorem normalize_positive (m e : Int) (h : 0 ≤ m) :
    SignPositive (UnpackedFloat.normalize .binary64 m e .positive) := by
  unfold UnpackedFloat.normalize
  split
  · next hneg =>
      rw [compare_lt_iff_lt] at hneg
      omega
  · rfl
  · exact roundWithAccuracy_positive _ _ _

theorem mul_positive (u v : UnpackedFloat) (hu : SignPositive u) (hv : SignPositive v) :
    SignPositive (UnpackedFloat.mul .binary64 u v) := by
  cases u <;> cases v <;> simp only [SignPositive] at hu hv <;> subst_vars <;>
    first
    | trivial
    | exact roundWithAccuracy_positive _ _ _

theorem div_positive (u v : UnpackedFloat) (hu : SignPositive u) (hv : SignPositive v) :
    SignPositive (UnpackedFloat.div .binary64 u v) := by
  cases u <;> cases v <;> simp only [SignPositive] at hu hv <;> subst_vars <;>
    first
    | trivial
    | exact roundWithAccuracy_positive _ _ _

theorem add_positive (u v : UnpackedFloat) (hu : SignPositive u) (hv : SignPositive v) :
    SignPositive (UnpackedFloat.add .binary64 u v) := by
  cases u <;> cases v <;> simp only [SignPositive] at hu hv <;> subst_vars <;>
    first
    | trivial
    | exact normalize_positive _ _ (Int.add_nonneg (Int.natCast_nonneg _) (Int.natCast_nonneg _))

theorem ofScientific_positive (m : Nat) (e : Int) : SignPositive (UnpackedFloat.ofScientific .binary64 m e) := by
  unfold UnpackedFloat.ofScientific
  split
  · rfl
  · split
    · rfl
    · split
      · rfl
      · split
        · exact mul_positive _ _ rfl rfl
        · exact div_positive _ _ rfl rfl

end Operations

section Packing

theorem unpackSign_packComponents (s : Sign) (e : BitVec 11) (m : BitVec 52) :
    unpackSign (packComponents .binary64 s e m) = s.toBitVec := by
  ext i hi
  simp only [unpackSign, packComponents]
  grind [BitVec.extractLsb]

-- The sign survives the packed form.
theorem unpackSign_pack (u : UnpackedFloat) (h : SignPositive u) :
    unpackSign (UnpackedFloat.pack .binary64 u) = 0#1 := by
  cases u with
  | notANumber => exact unpackSign_packComponents _ _ _
  | infinity s =>
      obtain rfl : s = .positive := h
      exact unpackSign_packComponents _ _ _
  | zero s =>
      obtain rfl : s = .positive := h
      exact unpackSign_packComponents _ _ _
  | finite s m e hm =>
      obtain rfl : s = .positive := h
      rw [UnpackedFloat.pack]
      dsimp only
      split
      · exact unpackSign_packComponents _ _ _
      · split <;> exact unpackSign_packComponents _ _ _

theorem signPositive_unpack (b : BitVec Format.binary64.numBits) (h : unpackSign b = 0#1) :
    SignPositive (UnpackedFloat.unpack .binary64 b) := by
  have hsign : Sign.ofBitVec (unpackSign b) = .positive := by
    rw [h]
    rfl
  unfold UnpackedFloat.unpack
  dsimp only
  rw [hsign]
  split
  · split
    · rfl
    · trivial
  · split
    · split <;> rfl
    · rfl

theorem signPositive_pack (u : UnpackedFloat) (h : SignPositive u) : SignPositive (Float.Model.pack u).unpack :=
  signPositive_unpack _ (unpackSign_pack u h)

end Packing

section Floats

-- A value that is positive, the positive zero or a NaN.
def IsUnsigned (x : Float) : Prop := SignPositive x.toModel.unpack

theorem isUnsigned_pack (u : UnpackedFloat) (h : SignPositive u) : IsUnsigned (.ofModel (.pack u)) :=
  signPositive_pack u h

theorem IsUnsigned.add (x y : Float) (hx : IsUnsigned x) (hy : IsUnsigned y) : IsUnsigned (x + y) :=
  isUnsigned_pack _ (add_positive _ _ hx hy)

theorem IsUnsigned.div (x y : Float) (hx : IsUnsigned x) (hy : IsUnsigned y) : IsUnsigned (x / y) :=
  isUnsigned_pack _ (div_positive _ _ hx hy)

theorem isUnsigned_decimal (m : Nat) (e : Int) : IsUnsigned (decimalToFloat false m e) :=
  isUnsigned_pack _ (ofScientific_positive m e)

theorem decimal_lt_zero (x : Float) (d : Decimal) (hd : exactDecimal x = some d) (hneg : d.neg = false) :
    (PyNum.float x).lt (.int 0) = false := by
  have hnonneg : (0 : ℚ) ≤ (if d.neg then -1 else 1) * d.digits * 10 ^ d.exponent := by
    rw [hneg]
    simp only [Bool.false_eq_true, if_false, one_mul]
    positivity
  simp only [PyNum.lt, PyNum.value, hd, decide_eq_false_iff_not, not_lt]
  exact_mod_cast hnonneg

-- Nothing without a sign is less than zero.
theorem IsUnsigned.lt_zero (x : Float) (h : IsUnsigned x) : (PyNum.float x).lt (.int 0) = false := by
  unfold IsUnsigned at h
  cases hu : x.toModel.unpack with
  | notANumber => simp [PyNum.lt, PyNum.value, exactDecimal, hu]
  | infinity s =>
      rw [hu] at h
      obtain rfl : s = .positive := h
      simp [PyNum.lt, PyNum.value, exactDecimal, hu]
  | zero s =>
      rw [hu] at h
      obtain rfl : s = .positive := h
      exact decimal_lt_zero x ⟨false, 0, 0⟩ (by simp [exactDecimal, hu, isNegative]) rfl
  | finite s m e hm =>
      rw [hu] at h
      obtain rfl : s = .positive := h
      by_cases he : 0 ≤ e
      · exact decimal_lt_zero x ⟨false, m * 2 ^ e.toNat, 0⟩ (by simp [exactDecimal, hu, he, isNegative]) rfl
      · exact decimal_lt_zero x ⟨false, m * 5 ^ (-e).toNat, e⟩ (by simp [exactDecimal, hu, he, isNegative]) rfl

end Floats

end V91Core.Python
