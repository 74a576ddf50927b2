import Mathlib.Data.Set.Defs

namespace V91Core.Effect

-- Every exception of the computation is one of these.
def Raises (x : Except ε α) (P : ε → Prop) : Prop := ∀ e, x = .error e → P e

theorem raises_ok (a : α) (P : ε → Prop) : Raises (.ok a) P := nofun

theorem raises_error (e : ε) (P : ε → Prop) (h : P e) : Raises (.error e : Except ε α) P := by
  intro e' he
  obtain rfl := Except.error.inj he
  exact h

theorem Raises.mono (x : Except ε α) (P Q : ε → Prop) (hx : Raises x P) (h : ∀ e, P e → Q e) : Raises x Q :=
  fun e he => h e (hx e he)

-- What follows may rely on the result.
theorem raises_bind (x : Except ε α) (f : α → Except ε β) (P : ε → Prop) (hx : Raises x P)
    (hf : ∀ a, x = .ok a → Raises (f a) P) : Raises (x >>= f) P := by
  intro e h
  cases hresult : x with
  | error e' =>
      rw [hresult] at h
      obtain rfl := Except.error.inj h
      exact hx e' hresult
  | ok a =>
      rw [hresult] at h
      exact hf a hresult e h

end V91Core.Effect
