import Mathlib.Algebra.BigOperators.Group.List.Basic
import Mathlib.Algebra.Order.BigOperators.Group.List
import Mathlib.Algebra.Order.Field.Basic
import Mathlib.Tactic.FieldSimp
import Mathlib.Tactic.Linarith
import Mathlib.Tactic.Positivity
import Mathlib.Tactic.Ring

namespace V91Core.Numeric

section Moments

variable {K : Type*} [Field K]

def meanOf (xs : List K) : K := xs.sum / xs.length

def squaredDeviations (c : K) (xs : List K) : K := (xs.map fun x => (x - c) * (x - c)).sum

-- The variance of a sample around its own mean.
def varianceOf (xs : List K) : K := squaredDeviations (meanOf xs) xs / (xs.length - 1)

-- The deviations from the mean in one pass over the sample.
def onePassDeviations (xs : List K) : K :=
  (xs.length * (xs.map fun x => x * x).sum - xs.sum * xs.sum) / xs.length

theorem squaredDeviations_eq (c : K) (xs : List K) :
    squaredDeviations c xs = (xs.map fun x => x * x).sum - 2 * c * xs.sum + xs.length * (c * c) := by
  induction xs with
  | nil => simp [squaredDeviations]
  | cons x xs ih =>
      unfold squaredDeviations at ih ⊢
      simp only [List.map_cons, List.sum_cons, List.length_cons, Nat.cast_succ, ih]
      ring

variable [LinearOrder K] [IsStrictOrderedRing K]

theorem onePassDeviations_eq (xs : List K) (h : xs ≠ []) :
    onePassDeviations xs = squaredDeviations (meanOf xs) xs := by
  have hlength : (xs.length : K) ≠ 0 := Nat.cast_ne_zero.mpr (mt List.length_eq_zero_iff.mp h)
  rw [squaredDeviations_eq, onePassDeviations, meanOf]
  field_simp
  ring

theorem squaredDeviations_nonneg (c : K) (xs : List K) : 0 ≤ squaredDeviations c xs := by
  apply List.sum_nonneg
  intro y hy
  obtain ⟨x, -, rfl⟩ := List.mem_map.mp hy
  exact mul_self_nonneg _

theorem varianceOf_nonneg (xs : List K) (h : 1 ≤ xs.length) : 0 ≤ varianceOf xs := by
  have hlength : (1 : K) ≤ xs.length := by exact_mod_cast h
  exact div_nonneg (squaredDeviations_nonneg _ _) (by linarith)

theorem abs_sum_le (bound : K) (xs : List K) (h : ∀ x ∈ xs, |x| ≤ bound) : |xs.sum| ≤ xs.length * bound := by
  induction xs with
  | nil => simp
  | cons x xs ih =>
      obtain ⟨hx, hxs⟩ := List.forall_mem_cons.mp h
      have hrest := ih hxs
      have htri := abs_add_le x xs.sum
      rw [List.sum_cons, List.length_cons, Nat.cast_succ]
      linarith

-- A mean lies where its sample does.
theorem abs_meanOf_le (bound : K) (xs : List K) (hne : xs ≠ []) (h : ∀ x ∈ xs, |x| ≤ bound) :
    |meanOf xs| ≤ bound := by
  have hlength : (0 : K) < xs.length := Nat.cast_pos.mpr (List.length_pos_iff.mpr hne)
  rw [meanOf, abs_div, abs_of_pos hlength, div_le_iff₀ hlength, mul_comm]
  exact abs_sum_le bound xs h

theorem meanOf_replicate (n : Nat) (x : K) (h : n ≠ 0) : meanOf (List.replicate n x) = x := by
  have hlength : (n : K) ≠ 0 := Nat.cast_ne_zero.mpr h
  rw [meanOf, List.sum_replicate, List.length_replicate, nsmul_eq_mul, mul_div_cancel_left₀ x hlength]

-- Equal values do not spread.
theorem varianceOf_replicate (n : Nat) (x : K) (h : n ≠ 0) : varianceOf (List.replicate n x) = 0 := by
  rw [varianceOf, squaredDeviations, meanOf_replicate n x h]
  simp

end Moments

end V91Core.Numeric
