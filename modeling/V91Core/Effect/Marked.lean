import V91Core.Effect.Layer
import V91Core.Effect.Pool

namespace V91Core.Effect

variable {ι σ Op COp : Type} {Res : Op → Type} {CRes : COp → Type} {ε α β : Type}

-- The operations of a program in which every call of a function reports its
-- return.
inductive Marked (Op COp : Type) (CRes : COp → Type) (ε : Type) where
  | op (op : Op)
  | returned (c : COp) (answer : Except ε (CRes c))

abbrev MarkedRes (Res : Op → Type) : Marked Op COp CRes ε → Type
  | .op op => Res op
  | .returned _ _ => Unit

namespace Prog

-- What a function reports does not depend on the answer to the report.
def marked (body : (c : COp) → Prog Op Res ε (CRes c)) (c : COp) :
    Prog (Marked Op COp CRes ε) (MarkedRes Res) ε (CRes c) := do
  let answer ← ((body c).lift .op fun _ b => b).attempt
  .call (.returned c answer) fun _ => ofExcept answer

-- The same program without the reports.
def erase : Prog (Marked Op COp CRes ε) (MarkedRes Res) ε α → Prog Op Res ε α
  | .ret a => .ret a
  | .raise e => .raise e
  | .call (.op op) k => .call op fun r => (k r).erase
  | .call (.returned _ _) k => (k (.ok ())).erase

@[simp] theorem erase_ofExcept (r : Except ε α) :
    (ofExcept r : Prog (Marked Op COp CRes ε) (MarkedRes Res) ε α).erase = ofExcept r := by
  cases r <;> rfl

theorem erase_bind (p : Prog (Marked Op COp CRes ε) (MarkedRes Res) ε α)
    (f : α → Prog (Marked Op COp CRes ε) (MarkedRes Res) ε β) :
    (p >>= f).erase = p.erase >>= fun a => (f a).erase := by
  induction p with
  | ret a => rfl
  | raise e => rfl
  | call op k ih =>
      cases op with
      | op op => exact congrArg _ (funext ih)
      | returned c answer => exact ih _

theorem erase_attempt (p : Prog (Marked Op COp CRes ε) (MarkedRes Res) ε α) : p.attempt.erase = p.erase.attempt := by
  induction p with
  | ret a => rfl
  | raise e => rfl
  | call op k ih =>
      cases op with
      | op op => exact congrArg _ (funext ih)
      | returned c answer => exact ih _

theorem erase_lift (p : Prog Op Res ε α) :
    (p.lift .op fun _ b => b : Prog (Marked Op COp CRes ε) (MarkedRes Res) ε α).erase = p := by
  induction p with
  | ret a => rfl
  | raise e => rfl
  | call op k ih =>
      rw [lift, erase]
      refine congrArg _ (funext fun r => ?_)
      rw [ih]
      cases r <;> rfl

theorem erase_marked (body : (c : COp) → Prog Op Res ε (CRes c)) (c : COp) : (marked body c).erase = body c := by
  rw [marked, erase_bind, erase_attempt, erase_lift]
  simp only [erase, erase_ofExcept]
  exact attempt_bind_ofExcept _

-- The reports are all that is added to the program.
theorem erase_expand (body : (c : COp) → Prog Op Res ε (CRes c)) (p : Prog COp CRes ε α) :
    (p.expand (marked body)).erase = p.expand body := by
  induction p with
  | ret a => rfl
  | raise e => rfl
  | call c k ih =>
      rw [expand, expand, erase_bind, erase_attempt, erase_marked]
      exact congrArg _ (funext ih)

end Prog

variable (S : System ι σ Op Res ε) (note : ι → σ → (c : COp) → Except ε (CRes c) → σ)

-- The system in which the returns are noted.
def System.marked : System ι σ (Marked Op COp CRes ε) (MarkedRes Res) ε where
  exec i s
    | .op op, r, s' => S.exec i s op r s'
    | .returned c answer, r, s' => r = .ok () ∧ s' = note i s c answer
  env := S.env

namespace Contract

variable {S} (C : Contract S)

def marked : Contract (S.marked note) where
  Inv := C.Inv
  Rely := C.Rely
  Guar := C.Guar
  rely_refl := C.rely_refl
  rely_trans := C.rely_trans
  guar_refl := C.guar_refl
  rely_of_guar := C.rely_of_guar
  inv_of_env := C.inv_of_env
  rely_of_env := C.rely_of_env

variable {C note} {i : ι}

theorem Sat.lift {post : σ → Except ε α → Prop} {p : Prog Op Res ε α} {s : σ} (h : C.Sat i post p s) :
    (C.marked note).Sat i post (p.lift .op fun _ b => b) s := by
  induction p generalizing s with
  | ret a => exact h
  | raise e => exact h
  | call op k ih =>
      intro s' hrely hinv r s'' hexec
      obtain ⟨hinv', hguar, hk⟩ := h s' hrely hinv r s'' hexec
      refine ⟨hinv', hguar, ?_⟩
      cases r with
      | ok b => exact ih (.ok b) hk
      | error e => exact ih (.error e) hk

-- A function and the note of its return.
theorem Sat.marked {body : (c : COp) → Prog Op Res ε (CRes c)} {c : COp} {M post : σ → Except ε (CRes c) → Prop}
    {s : σ} (h : C.Sat i M (body c) s)
    (hstable : ∀ s' s'' r, C.Rely i s' s'' → C.Inv s'' → M s' r → M s'' r)
    (hnote : ∀ s' r, C.Inv s' → M s' r → C.Inv (note i s' c r) ∧ C.Guar i s' (note i s' c r) ∧
      ∀ s'', C.Rely i (note i s' c r) s'' → C.Inv s'' → post s'' r) :
    (C.marked note).Sat i post (Prog.marked body c) s := by
  refine h.lift.attempt.bind ?_ ?_
  · rintro s₁ answer hinv ⟨outcome, houtcome, hmid⟩
    obtain rfl := Except.ok.inj houtcome
    rintro s₂ hrely hinv' r s₃ ⟨-, rfl⟩
    obtain ⟨hinv'', hguar, hpost⟩ := hnote s₂ answer hinv' (hstable _ _ _ hrely hinv' hmid)
    exact ⟨hinv'', hguar, sat_ofExcept hpost⟩
  · rintro s' e _ ⟨outcome, houtcome, -⟩
    cases houtcome

end Contract

end V91Core.Effect
