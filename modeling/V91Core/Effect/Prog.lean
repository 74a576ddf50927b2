import Mathlib.Logic.Basic

namespace V91Core.Effect

-- A program that calls operations of its environment. An operation returns a
-- result or raises an exception.
inductive Prog (Op : Type) (Res : Op → Type) (ε α : Type) where
  | ret (a : α)
  | raise (e : ε)
  | call (op : Op) (k : Except ε (Res op) → Prog Op Res ε α)

namespace Prog

variable {Op : Type} {Res : Op → Type} {ε α β : Type}

def bind (f : α → Prog Op Res ε β) : Prog Op Res ε α → Prog Op Res ε β
  | .ret a => f a
  | .raise e => .raise e
  | .call op k => .call op fun r => (k r).bind f

instance : Monad (Prog Op Res ε) where
  pure := .ret
  bind p f := p.bind f

def ofExcept : Except ε α → Prog Op Res ε α
  | .ok a => .ret a
  | .error e => .raise e

instance : MonadLift (Except ε) (Prog Op Res ε) := ⟨ofExcept⟩

def perform (op : Op) : Prog Op Res ε (Res op) := .call op ofExcept

-- `try: p except ...`.
def catching (handler : ε → Prog Op Res ε α) : Prog Op Res ε α → Prog Op Res ε α
  | .ret a => .ret a
  | .raise e => handler e
  | .call op k => .call op fun r => (k r).catching handler

def attempt : Prog Op Res ε α → Prog Op Res ε (Except ε α)
  | .ret a => .ret (.ok a)
  | .raise e => .ret (.error e)
  | .call op k => .call op fun r => (k r).attempt

-- `try: p finally: cleanup`. An exception of the cleanup replaces the outcome.
def finishing (cleanup : Prog Op Res ε Unit) (p : Prog Op Res ε α) : Prog Op Res ε α := do
  let outcome ← p.attempt
  cleanup
  ofExcept outcome

-- The same program over a larger set of operations.
def lift {Op' : Type} {Res' : Op' → Type} (emb : Op → Op') (back : ∀ op, Res' (emb op) → Res op) :
    Prog Op Res ε α → Prog Op' Res' ε α
  | .ret a => .ret a
  | .raise e => .raise e
  | .call op k => .call (emb op) fun r => (k (r.map (back op))).lift emb back

-- The result of a program that has ended.
def outcome : Prog Op Res ε α → Option (Except ε α)
  | .ret a => some (.ok a)
  | .raise e => some (.error e)
  | .call _ _ => none

theorem outcome_eq_ok (p : Prog Op Res ε α) (a : α) : p.outcome = some (.ok a) ↔ p = .ret a := by
  cases p <;> simp [outcome]

theorem outcome_eq_error (p : Prog Op Res ε α) (e : ε) : p.outcome = some (.error e) ↔ p = .raise e := by
  cases p <;> simp [outcome]

@[simp] theorem bind_ret (a : α) (f : α → Prog Op Res ε β) : (Prog.ret a >>= f) = f a := rfl

@[simp] theorem bind_raise (e : ε) (f : α → Prog Op Res ε β) : (Prog.raise e >>= f) = .raise e := rfl

@[simp] theorem bind_call (op : Op) (k : Except ε (Res op) → Prog Op Res ε α) (f : α → Prog Op Res ε β) :
    (Prog.call op k >>= f) = .call op fun r => k r >>= f := rfl

end Prog

end V91Core.Effect
