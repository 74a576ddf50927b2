import V91Core.Python.Numeric

namespace V91Core.Python

namespace PyNum

-- No NaN.
def IsNumber (a : PyNum) : Prop := a.value.isSome = true

-- A number that is not infinite.
def IsReal (a : PyNum) : Prop := ∃ q : ℚ, a.value = some ((q : WithTop ℚ) : WithBot (WithTop ℚ))

theorem isNumber_int (n : Int) : (PyNum.int n).IsNumber := rfl

theorem IsReal.isNumber {a : PyNum} (h : a.IsReal) : a.IsNumber := by
  obtain ⟨q, hq⟩ := h
  rw [IsNumber, hq]
  rfl

theorem le_iff (a b : PyNum) : a.le b = true ↔ ∃ p q, a.value = some p ∧ b.value = some q ∧ p ≤ q := by
  unfold le
  cases a.value <;> cases b.value <;> simp

theorem lt_iff (a b : PyNum) : a.lt b = true ↔ ∃ p q, a.value = some p ∧ b.value = some q ∧ p < q := by
  unfold lt
  cases a.value <;> cases b.value <;> simp

theorem isNumber_iff (a : PyNum) : a.IsNumber ↔ ∃ p, a.value = some p := Option.isSome_iff_exists

theorem isNumber_of_le (a b : PyNum) (h : a.le b = true) : a.IsNumber ∧ b.IsNumber := by
  obtain ⟨p, q, hp, hq, -⟩ := (le_iff a b).mp h
  exact ⟨(isNumber_iff a).mpr ⟨p, hp⟩, (isNumber_iff b).mpr ⟨q, hq⟩⟩

-- Two comparisons that fail tell nothing unless both sides are numbers.
theorem le_of_not_lt (a b : PyNum) (ha : a.IsNumber) (hb : b.IsNumber) (h : b.lt a = false) : a.le b = true := by
  obtain ⟨p, hp⟩ := (isNumber_iff a).mp ha
  obtain ⟨q, hq⟩ := (isNumber_iff b).mp hb
  refine (le_iff a b).mpr ⟨p, q, hp, hq, ?_⟩
  by_contra hlt
  rw [not_le] at hlt
  rw [(lt_iff b a).mpr ⟨q, p, hq, hp, hlt⟩] at h
  cases h

theorem lt_of_not_le (a b : PyNum) (ha : a.IsNumber) (hb : b.IsNumber) (h : b.le a = false) : a.lt b = true := by
  obtain ⟨p, hp⟩ := (isNumber_iff a).mp ha
  obtain ⟨q, hq⟩ := (isNumber_iff b).mp hb
  refine (lt_iff a b).mpr ⟨p, q, hp, hq, ?_⟩
  by_contra hle
  rw [not_lt] at hle
  rw [(le_iff b a).mpr ⟨q, p, hq, hp, hle⟩] at h
  cases h

theorem le_trans' (a b c : PyNum) (hab : a.le b = true) (hbc : b.le c = true) : a.le c = true := by
  obtain ⟨p, q, hp, hq, hpq⟩ := (le_iff a b).mp hab
  obtain ⟨q', r, hq', hr, hqr⟩ := (le_iff b c).mp hbc
  obtain rfl := Option.some.inj (hq.symm.trans hq')
  exact (le_iff a c).mpr ⟨p, r, hp, hr, hpq.trans hqr⟩

end PyNum

end V91Core.Python
