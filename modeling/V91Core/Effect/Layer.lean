import V91Core.Effect.Trace

namespace V91Core.Effect

variable {Op COp : Type} {Res : Op → Type} {CRes : COp → Type} {ε Event α β : Type}

section Calls

variable (Ans : Event → (op : Op) → Except ε (Res op) → Prop) (body : (c : COp) → Prog Op Res ε (CRes c))

-- A call of a function with what the function did and how it ended.
structure Call where
  op : COp
  steps : List Event
  answer : Except ε (CRes op)
  runs : (body op).Runs Ans steps answer

inductive Called : Call Ans body → (c : COp) → Except ε (CRes c) → Prop
  | mk (c : COp) (steps : List Event) (r : Except ε (CRes c)) (runs : (body c).Runs Ans steps r) :
      Called ⟨c, steps, r, runs⟩ c r

end Calls

section Play

variable {σ : Type} {Ans : Event → (op : Op) → Except ε (Res op) → Prop} (body : (c : COp) → Prog Op Res ε (CRes c))
  (answer : σ → (op : Op) → Event × Except ε (Res op) × σ)
  (hans : ∀ s op, Ans (answer s op).1 op (answer s op).2.1)

-- The call in which `answer` answers the operations.
def Call.play (s : σ) (c : COp) : Call Ans body × Except ε (CRes c) × σ :=
  let run := (body c).play answer s
  (⟨c, run.1, run.2.1, Prog.play_runs answer hans (body c) s⟩, run.2)

theorem Call.play_called (s : σ) (c : COp) :
    Called Ans body (Call.play body answer hans s c).1 c (Call.play body answer hans s c).2.1 := .mk _ _ _ _

end Play

namespace Prog

section Expand

variable (body : (c : COp) → Prog Op Res ε (CRes c))

-- Every call is replaced by the body of the function.
def expand : Prog COp CRes ε α → Prog Op Res ε α
  | .ret a => .ret a
  | .raise e => .raise e
  | .call c k => (body c).attempt >>= fun r => expand (k r)

theorem bind_assoc {γ : Type} (p : Prog Op Res ε α) (f : α → Prog Op Res ε β) (g : β → Prog Op Res ε γ) :
    (p >>= f >>= g) = p >>= fun a => f a >>= g := by
  induction p with
  | ret a => rfl
  | raise e => rfl
  | call op k ih =>
      simp only [bind_call]
      exact congrArg _ (funext ih)

theorem attempt_bind_ofExcept (p : Prog Op Res ε α) : (p.attempt >>= ofExcept) = p := by
  induction p with
  | ret a => rfl
  | raise e => rfl
  | call op k ih =>
      rw [attempt, bind_call]
      exact congrArg _ (funext ih)

theorem attempt_attempt_bind (p : Prog Op Res ε α) (f : Except ε α → Prog Op Res ε β) :
    (p.attempt >>= f).attempt = p.attempt >>= fun r => (f r).attempt := by
  induction p with
  | ret a => rfl
  | raise e => rfl
  | call op k ih =>
      rw [attempt, bind_call, bind_call, attempt]
      exact congrArg _ (funext ih)

theorem catching_attempt_bind (p : Prog Op Res ε α) (f : Except ε α → Prog Op Res ε β)
    (handler : ε → Prog Op Res ε β) :
    (p.attempt >>= f).catching handler = p.attempt >>= fun r => (f r).catching handler := by
  induction p with
  | ret a => rfl
  | raise e => rfl
  | call op k ih =>
      rw [attempt, bind_call, bind_call, catching]
      exact congrArg _ (funext ih)

@[simp] theorem expand_ofExcept (r : Except ε α) :
    (ofExcept r : Prog COp CRes ε α).expand body = ofExcept r := by
  cases r <;> rfl

@[simp] theorem expand_perform (c : COp) : (perform c : Prog COp CRes ε (CRes c)).expand body = body c := by
  rw [perform, expand]
  simp only [expand_ofExcept]
  exact attempt_bind_ofExcept _

@[simp] theorem expand_bind (p : Prog COp CRes ε α) (f : α → Prog COp CRes ε β) :
    (p >>= f).expand body = p.expand body >>= fun a => (f a).expand body := by
  induction p with
  | ret a => rfl
  | raise e => rfl
  | call c k ih =>
      rw [bind_call, expand, expand, bind_assoc]
      exact congrArg _ (funext ih)

@[simp] theorem expand_attempt (p : Prog COp CRes ε α) : p.attempt.expand body = (p.expand body).attempt := by
  induction p with
  | ret a => rfl
  | raise e => rfl
  | call c k ih =>
      rw [attempt, expand, expand, attempt_attempt_bind]
      exact congrArg _ (funext ih)

@[simp] theorem expand_catching (p : Prog COp CRes ε α) (handler : ε → Prog COp CRes ε α) :
    (p.catching handler).expand body = (p.expand body).catching fun e => (handler e).expand body := by
  induction p with
  | ret a => rfl
  | raise e => rfl
  | call c k ih =>
      rw [catching, expand, expand, catching_attempt_bind]
      exact congrArg _ (funext ih)

@[simp] theorem expand_finishing (p : Prog COp CRes ε α) (cleanup : Prog COp CRes ε Unit) :
    (finishing cleanup p).expand body = finishing (cleanup.expand body) (p.expand body) := by
  simp only [finishing, expand_bind, expand_attempt, expand_ofExcept]

end Expand

end Prog

end V91Core.Effect
