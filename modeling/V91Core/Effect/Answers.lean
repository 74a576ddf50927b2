import V91Core.Effect.Eval
import V91Core.Effect.Trace

namespace V91Core.Effect.Prog

variable {Op : Type} {Res : Op → Type} {ε α β : Type}

-- An environment that may answer every operation in every way.
inductive Answers : Answered Op Res ε → (op : Op) → Except ε (Res op) → Prop
  | answered (op : Op) (r : Except ε (Res op)) : Answers ⟨op, r⟩ op r

theorem answers_iff (event : Answered Op Res ε) (op : Op) (r : Except ε (Res op)) :
    Answers event op r ↔ event = ⟨op, r⟩ := by
  constructor
  · intro h
    cases h
    rfl
  · rintro rfl
    exact .answered op r

-- A call and what follows its answer.
theorem runs_answers_bind (op : Op) (f : Res op → Prog Op Res ε α) (events : List (Answered Op Res ε))
    (out : Except ε α) :
    Runs Answers (perform op >>= f) events out ↔
      (∃ b rest, events = ⟨op, .ok b⟩ :: rest ∧ Runs Answers (f b) rest out) ∨
        ∃ e, events = [⟨op, .error e⟩] ∧ out = .error e := by
  rw [runs_perform_bind]
  refine or_congr ?_ ?_
  · constructor
    · rintro ⟨event, b, rest, rfl, hans, hrest⟩
      rw [(answers_iff event op _).mp hans]
      exact ⟨b, rest, rfl, hrest⟩
    · rintro ⟨b, rest, rfl, hrest⟩
      exact ⟨_, b, rest, rfl, .answered op _, hrest⟩
  · constructor
    · rintro ⟨event, e, rfl, hout, hans⟩
      rw [(answers_iff event op _).mp hans]
      exact ⟨e, rfl, hout⟩
    · rintro ⟨e, rfl, hout⟩
      exact ⟨_, e, rfl, hout, .answered op _⟩

-- The run in which `env` answers every operation.
theorem runs_answered {Event : Type} {Ans : Event → (op : Op) → Except ε (Res op) → Prop}
    (env : (op : Op) → Except ε (Res op)) (event : Op → Event) (hans : ∀ op, Ans (event op) op (env op))
    (p : Prog Op Res ε α) : Runs Ans p ((p.calls env).map event) (p.result env) := by
  induction p with
  | ret a => exact .ret a
  | raise e => exact .raise e
  | call op k ih => exact .call op k _ _ _ _ (hans op) (ih (env op))

theorem runs_result (env : (op : Op) → Except ε (Res op)) (p : Prog Op Res ε α) :
    Runs Answers p ((p.calls env).map fun op => ⟨op, env op⟩) (p.result env) := by
  have hans : ∀ op, Answers ⟨op, env op⟩ op (env op) := fun op => .answered op (env op)
  exact runs_answered env _ hans p

end V91Core.Effect.Prog
