import Mathlib.Algebra.Order.Floor.Ring
import Mathlib.Data.Rat.Floor
import Mathlib.Tactic.Linarith
import Mathlib.Tactic.Ring
import Mathlib.Tactic.FieldSimp

namespace V91Core.Numeric

section HalfEven

variable {K : Type*} [Field K] [LinearOrder K] [IsStrictOrderedRing K] [FloorRing K]

-- The integer nearest to `y`. A tie goes to the even one.
def roundEven (y : K) : Int :=
  if 2 * (y - ⌊y⌋) < 1 then ⌊y⌋ else if 1 < 2 * (y - ⌊y⌋) then ⌊y⌋ + 1 else ⌊y⌋ + ⌊y⌋ % 2

theorem roundEven_intCast (n : Int) : roundEven (n : K) = n := by
  simp [roundEven]

-- What rounds to `n` or more starts a half below `n`, and the half itself rounds
-- up to an even `n` only.
theorem le_roundEven_iff (n : Int) (y : K) :
    n ≤ roundEven y ↔ 2 * (n : K) - 1 < 2 * y ∨ (n % 2 = 0 ∧ 2 * (n : K) - 1 = 2 * y) := by
  have hlo : (⌊y⌋ : K) ≤ y := Int.floor_le y
  have hhi : y < ⌊y⌋ + 1 := Int.lt_floor_add_one y
  rcases lt_trichotomy n (⌊y⌋ + 1) with hlt | heq | hgt
  · have hn : (n : K) ≤ ⌊y⌋ := by exact_mod_cast Int.lt_add_one_iff.mp hlt
    have hround : ⌊y⌋ ≤ roundEven y := by
      unfold roundEven
      split
      · omega
      · split <;> omega
    exact iff_of_true (by omega) (.inl (by linarith))
  · have hn : (n : K) = ⌊y⌋ + 1 := by exact_mod_cast heq
    unfold roundEven
    by_cases hdown : 2 * (y - ⌊y⌋) < 1
    · rw [if_pos hdown]
      refine iff_of_false (by omega) ?_
      rintro (h | ⟨-, h⟩) <;> linarith
    · rw [if_neg hdown]
      by_cases hup : 1 < 2 * (y - ⌊y⌋)
      · rw [if_pos hup]
        exact iff_of_true (by omega) (.inl (by linarith))
      · rw [if_neg hup]
        have hhalf : 2 * (n : K) - 1 = 2 * y := by linarith
        have hparity := Int.emod_two_eq ⌊y⌋
        constructor
        · intro h
          exact .inr ⟨by omega, hhalf⟩
        · rintro (h | ⟨h, -⟩)
          · linarith
          · omega
  · have hn : (⌊y⌋ : K) + 1 + 1 ≤ n := by exact_mod_cast hgt
    have hround : roundEven y ≤ ⌊y⌋ + 1 := by
      have hparity := Int.emod_two_eq ⌊y⌋
      unfold roundEven
      split
      · omega
      · split <;> omega
    refine iff_of_false (by omega) ?_
    rintro (h | ⟨-, h⟩) <;> linarith

theorem le_roundEven_even (n : Int) (y : K) (hn : n % 2 = 0) : n ≤ roundEven y ↔ 2 * (n : K) - 1 ≤ 2 * y := by
  rw [le_roundEven_iff, le_iff_lt_or_eq]
  simp [hn]

theorem le_roundEven_odd (n : Int) (y : K) (hn : n % 2 = 1) : n ≤ roundEven y ↔ 2 * (n : K) - 1 < 2 * y := by
  rw [le_roundEven_iff]
  simp [hn]

-- A decimal rounding of `y`.
def roundPlaces (places : Nat) (y : K) : K := roundEven (y * 10 ^ places) / 10 ^ places

theorem roundPlaces_idem (places : Nat) (y : K) :
    roundPlaces places (roundPlaces places y) = roundPlaces places y := by
  have hpow : (10 : K) ^ places ≠ 0 := pow_ne_zero _ (by norm_num)
  unfold roundPlaces
  rw [div_mul_cancel₀ _ hpow, roundEven_intCast]

theorem le_roundPlaces_iff (n : Int) (places : Nat) (y : K) :
    (n : K) / 10 ^ places ≤ roundPlaces places y ↔ n ≤ roundEven (y * 10 ^ places) := by
  have hpow : (0 : K) < 10 ^ places := pow_pos (by norm_num) _
  rw [roundPlaces, div_le_div_iff_of_pos_right hpow]
  exact_mod_cast Iff.rfl

theorem roundPlaces_pos_iff (places : Nat) (y : K) :
    0 < roundPlaces places y ↔ 1 < 2 * (y * 10 ^ places) := by
  have hpow : (0 : K) < 10 ^ places := pow_pos (by norm_num) _
  have hone := le_roundEven_odd 1 (y * 10 ^ places) rfl
  rw [roundPlaces, div_pos_iff_of_pos_right hpow]
  have hcast : (0 : K) < (roundEven (y * 10 ^ places) : K) ↔ 1 ≤ roundEven (y * 10 ^ places) := by
    exact_mod_cast Iff.rfl
  rw [hcast, hone]
  norm_num

end HalfEven

end V91Core.Numeric
