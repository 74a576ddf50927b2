import Mathlib.Data.List.Forall2
import V91Core.Effect.Prog

namespace V91Core.Effect

@[simp] theorem ok_bind (a : α) (f : α → Except ε β) : (Except.ok a >>= f) = f a := rfl

@[simp] theorem error_bind (e : ε) (f : α → Except ε β) : ((.error e : Except ε α) >>= f) = .error e := rfl

theorem cases_of_map_eq {g : α → β} {r r' : Except ε α} (h : r'.map g = r.map g) :
    (∃ e, r = .error e ∧ r' = .error e) ∨ ∃ a a', r = .ok a ∧ r' = .ok a' ∧ g a' = g a := by
  cases r with
  | error e =>
      cases r' with
      | error e' => exact .inl ⟨e, rfl, congrArg _ (Except.error.inj h)⟩
      | ok a' => cases h
  | ok a =>
      cases r' with
      | error e' => cases h
      | ok a' => exact .inr ⟨a, a', rfl, rfl, Except.ok.inj h⟩

namespace Prog

variable {Op : Type} {Res : Op → Type} {ε α β : Type}

-- The same program for every element of a list, one after the other.
def each (f : α → Prog Op Res ε β) : List α → Prog Op Res ε (List β)
  | [] => return []
  | a :: as => do
      let b ← f a
      let bs ← each f as
      return b :: bs

variable (env : (op : Op) → Except ε (Res op))

-- How a program ends when `env` answers its calls.
def result : Prog Op Res ε α → Except ε α
  | .ret a => .ok a
  | .raise e => .error e
  | .call op k => (k (env op)).result

-- The operations that it calls.
def calls : Prog Op Res ε α → List Op
  | .ret _ | .raise _ => []
  | .call op k => op :: (k (env op)).calls

@[simp] theorem result_pure (a : α) : (pure a : Prog Op Res ε α).result env = .ok a := rfl

@[simp] theorem calls_pure (a : α) : (pure a : Prog Op Res ε α).calls env = [] := rfl

@[simp] theorem result_ofExcept (r : Except ε α) : (ofExcept r : Prog Op Res ε α).result env = r := by
  cases r <;> rfl

@[simp] theorem calls_ofExcept (r : Except ε α) : (ofExcept r : Prog Op Res ε α).calls env = [] := by
  cases r <;> rfl

@[simp] theorem result_liftM (r : Except ε α) : (liftM r : Prog Op Res ε α).result env = r :=
  result_ofExcept env r

@[simp] theorem calls_liftM (r : Except ε α) : (liftM r : Prog Op Res ε α).calls env = [] :=
  calls_ofExcept env r

@[simp] theorem result_perform (op : Op) : (perform op).result env = env op := result_ofExcept env (env op)

@[simp] theorem calls_perform (op : Op) : (perform op).calls env = [op] :=
  congrArg (op :: ·) (calls_ofExcept env (env op))

theorem result_bind (p : Prog Op Res ε α) (f : α → Prog Op Res ε β) :
    (p >>= f).result env = (p.result env >>= fun a => (f a).result env) := by
  induction p with
  | ret a => rfl
  | raise e => rfl
  | call op k ih => exact ih (env op)

theorem calls_bind_ok (p : Prog Op Res ε α) (f : α → Prog Op Res ε β) (a : α) (h : p.result env = .ok a) :
    (p >>= f).calls env = p.calls env ++ (f a).calls env := by
  induction p with
  | ret b =>
      obtain rfl := Except.ok.inj h
      rfl
  | raise e => cases h
  | call op k ih => exact congrArg (op :: ·) (ih (env op) h)

theorem calls_bind_error (p : Prog Op Res ε α) (f : α → Prog Op Res ε β) (e : ε) (h : p.result env = .error e) :
    (p >>= f).calls env = p.calls env := by
  induction p with
  | ret b => cases h
  | raise e => rfl
  | call op k ih => exact congrArg (op :: ·) (ih (env op) h)

theorem mem_calls_bind (p : Prog Op Res ε α) (f : α → Prog Op Res ε β) (op : Op) (h : op ∈ (p >>= f).calls env) :
    op ∈ p.calls env ∨ ∃ a, p.result env = .ok a ∧ op ∈ (f a).calls env := by
  cases hresult : p.result env with
  | error e =>
      rw [calls_bind_error env p f e hresult] at h
      exact .inl h
  | ok a =>
      rw [calls_bind_ok env p f a hresult, List.mem_append] at h
      exact h.imp_right fun hrest => ⟨a, rfl, hrest⟩

theorem mem_calls_first (p : Prog Op Res ε α) (f : α → Prog Op Res ε β) (op : Op) (h : op ∈ p.calls env) :
    op ∈ (p >>= f).calls env := by
  cases hresult : p.result env with
  | error e =>
      rw [calls_bind_error env p f e hresult]
      exact h
  | ok a =>
      rw [calls_bind_ok env p f a hresult]
      exact List.mem_append_left _ h

theorem mem_calls_rest (p : Prog Op Res ε α) (f : α → Prog Op Res ε β) (a : α) (hresult : p.result env = .ok a)
    (op : Op) (h : op ∈ (f a).calls env) : op ∈ (p >>= f).calls env := by
  rw [calls_bind_ok env p f a hresult]
  exact List.mem_append_right _ h

@[simp] theorem result_attempt (p : Prog Op Res ε α) : p.attempt.result env = .ok (p.result env) := by
  induction p with
  | ret a => rfl
  | raise e => rfl
  | call op k ih => exact ih (env op)

@[simp] theorem calls_attempt (p : Prog Op Res ε α) : p.attempt.calls env = p.calls env := by
  induction p with
  | ret a => rfl
  | raise e => rfl
  | call op k ih => exact congrArg (op :: ·) (ih (env op))

theorem result_catching_ok (p : Prog Op Res ε α) (handler : ε → Prog Op Res ε α) (a : α)
    (h : p.result env = .ok a) : (p.catching handler).result env = .ok a := by
  induction p with
  | ret b => exact h
  | raise e => cases h
  | call op k ih => exact ih (env op) h

theorem result_catching_error (p : Prog Op Res ε α) (handler : ε → Prog Op Res ε α) (e : ε)
    (h : p.result env = .error e) : (p.catching handler).result env = (handler e).result env := by
  induction p with
  | ret b => cases h
  | raise e' =>
      obtain rfl := Except.error.inj h
      rfl
  | call op k ih => exact ih (env op) h

theorem calls_catching_error (p : Prog Op Res ε α) (handler : ε → Prog Op Res ε α) (e : ε)
    (h : p.result env = .error e) : (p.catching handler).calls env = p.calls env ++ (handler e).calls env := by
  induction p with
  | ret b => cases h
  | raise e' =>
      obtain rfl := Except.error.inj h
      rfl
  | call op k ih => exact congrArg (op :: ·) (ih (env op) h)

theorem mem_calls_catching (p : Prog Op Res ε α) (handler : ε → Prog Op Res ε α) (op : Op) (h : op ∈ p.calls env) :
    op ∈ (p.catching handler).calls env := by
  induction p with
  | ret a => cases h
  | raise e => cases h
  | call op' k ih =>
      rcases List.mem_cons.mp h with rfl | hrest
      · exact List.mem_cons_self
      · exact List.mem_cons_of_mem op' (ih (env op') hrest)

@[simp] theorem result_finishing (p : Prog Op Res ε α) (cleanup : Prog Op Res ε Unit) :
    (finishing cleanup p).result env = (cleanup.result env >>= fun _ => p.result env) := by
  rw [finishing, result_bind, result_attempt, ok_bind, result_bind]
  simp only [result_ofExcept]

-- A handler that calls nothing.
theorem calls_catching (p : Prog Op Res ε α) (handler : ε → Prog Op Res ε α)
    (hhandler : ∀ e, (handler e).calls env = []) : (p.catching handler).calls env = p.calls env := by
  induction p with
  | ret a => rfl
  | raise e => exact hhandler e
  | call op k ih => exact congrArg (op :: ·) (ih (env op))

section Each

variable (f : α → Prog Op Res ε β)

theorem result_each_iff (as : List α) (bs : List β) :
    (each f as).result env = .ok bs ↔ List.Forall₂ (fun a b => (f a).result env = .ok b) as bs := by
  induction as generalizing bs with
  | nil =>
      rw [List.forall₂_nil_left_iff]
      exact ⟨fun h => (Except.ok.inj h).symm, fun h => congrArg Except.ok h.symm⟩
  | cons a as ih =>
      rw [List.forall₂_cons_left_iff, each, result_bind]
      cases (f a).result env with
      | error e => exact iff_of_false nofun (fun h => by obtain ⟨b, rest, hb, -⟩ := h; cases hb)
      | ok b =>
          change (each f as >>= fun rest => pure (b :: rest)).result env = .ok bs ↔ _
          rw [result_bind]
          cases hrest : (each f as).result env with
          | error e =>
              refine iff_of_false nofun ?_
              rintro ⟨b', rest, -, hforall, -⟩
              rw [(ih rest).mpr hforall] at hrest
              cases hrest
          | ok rest =>
              constructor
              · intro h
                obtain rfl := Except.ok.inj h
                exact ⟨b, rest, rfl, (ih rest).mp hrest, rfl⟩
              · rintro ⟨b', rest', hb, hforall, rfl⟩
                obtain rfl := Except.ok.inj hb
                obtain rfl := Except.ok.inj (hrest.symm.trans ((ih rest').mpr hforall))
                rfl

theorem result_each_isOk (as : List α) :
    (∃ bs, (each f as).result env = .ok bs) ↔ ∀ a ∈ as, ∃ b, (f a).result env = .ok b := by
  simp only [result_each_iff]
  induction as with
  | nil => simp
  | cons a as ih => simp [List.forall₂_cons_left_iff, ih]

-- A program that returns `g a` for the elements that meet `P`, and raises for the others.
theorem result_each_eq_ok (P : α → Prop) (g : α → β)
    (h : ∀ a b, (f a).result env = .ok b ↔ P a ∧ b = g a) (as : List α) (bs : List β) :
    (each f as).result env = .ok bs ↔ (∀ a ∈ as, P a) ∧ bs = as.map g := by
  rw [result_each_iff]
  simp only [h]
  induction as generalizing bs with
  | nil => simp
  | cons a as ih =>
      rw [List.forall₂_cons_left_iff, List.forall_mem_cons, List.map_cons]
      constructor
      · rintro ⟨b, rest, ⟨ha, rfl⟩, hrest, rfl⟩
        obtain ⟨has, rfl⟩ := (ih rest).mp hrest
        exact ⟨⟨ha, has⟩, rfl⟩
      · rintro ⟨⟨ha, has⟩, rfl⟩
        exact ⟨g a, as.map g, ⟨ha, rfl⟩, (ih _).mpr ⟨has, rfl⟩, rfl⟩

theorem mem_calls_each (as : List α) (op : Op) (h : op ∈ (each f as).calls env) : ∃ a ∈ as, op ∈ (f a).calls env := by
  induction as with
  | nil => cases h
  | cons a as ih =>
      rw [each] at h
      rcases mem_calls_bind env _ _ op h with hfirst | ⟨b, -, hrest⟩
      · exact ⟨a, List.mem_cons_self, hfirst⟩
      · rcases mem_calls_bind env _ _ op hrest with hrest | ⟨bs, -, hend⟩
        · obtain ⟨other, hother, hop⟩ := ih hrest
          exact ⟨other, List.mem_cons_of_mem a hother, hop⟩
        · cases hend

theorem calls_each_ok (as : List α) (h : ∀ a ∈ as, ∃ b, (f a).result env = .ok b) :
    (each f as).calls env = as.flatMap fun a => (f a).calls env := by
  induction as with
  | nil => rfl
  | cons a as ih =>
      obtain ⟨⟨b, hb⟩, has⟩ := List.forall_mem_cons.mp h
      obtain ⟨bs, hbs⟩ := (result_each_isOk env f as).mpr has
      rw [each, calls_bind_ok env _ _ b hb, calls_bind_ok env _ _ bs hbs, ih has, List.flatMap_cons]
      simp

-- An exception cuts the calls off.
theorem calls_each_prefix (as : List α) : (each f as).calls env <+: as.flatMap fun a => (f a).calls env := by
  induction as with
  | nil => exact List.prefix_rfl
  | cons a as ih =>
      rw [each, List.flatMap_cons]
      cases hfirst : (f a).result env with
      | error e =>
          rw [calls_bind_error env _ _ e hfirst]
          exact List.prefix_append _ _
      | ok b =>
          have hrest : (each f as >>= fun bs => pure (b :: bs)).calls env = (each f as).calls env := by
            cases hbs : (each f as).result env with
            | error e => exact calls_bind_error env _ _ e hbs
            | ok bs => rw [calls_bind_ok env _ _ bs hbs, calls_pure, List.append_nil]
          rw [calls_bind_ok env _ _ b hfirst, hrest]
          exact (List.prefix_append_right_inj _).mpr ih

-- In another environment the results differ at most for `x`, which still returns or raises the same.
theorem result_each_others [DecidableEq α] (env' : (op : Op) → Except ε (Res op)) (x : α) (as : List α)
    (h : ∀ a ∈ as, a ≠ x → (f a).result env' = (f a).result env)
    (hx : ((f x).result env').map (fun _ => ()) = ((f x).result env).map (fun _ => ())) :
    ((each f as).result env').map (fun bs => (as.zip bs).filter (·.1 ≠ x)) =
      ((each f as).result env).map (fun bs => (as.zip bs).filter (·.1 ≠ x)) := by
  induction as with
  | nil => rfl
  | cons a as ih =>
      obtain ⟨ha, has⟩ := List.forall_mem_cons.mp h
      have hfirst : ((f a).result env').map (fun b => ([(a, b)] : List (α × β)).filter (·.1 ≠ x)) =
          ((f a).result env).map (fun b => ([(a, b)] : List (α × β)).filter (·.1 ≠ x)) := by
        by_cases hax : a = x
        · subst hax
          rcases cases_of_map_eq hx with ⟨e, he, he'⟩ | ⟨b, b', hb, hb', -⟩
          · rw [he, he']
          · rw [hb, hb']
            simp [Except.map]
        · rw [ha hax]
      rw [each, result_bind, result_bind]
      rcases cases_of_map_eq hfirst with ⟨e, he, he'⟩ | ⟨b, b', hb, hb', hhead⟩
      · rw [he, he']
        rfl
      · rw [hb, hb', ok_bind, ok_bind, result_bind, result_bind]
        rcases cases_of_map_eq (ih has) with ⟨e, he, he'⟩ | ⟨bs, bs', hbs, hbs', htail⟩
        · rw [he, he']
          rfl
        · rw [hbs, hbs']
          have hsplit : ∀ (c : β) (cs : List β), ((a :: as).zip (c :: cs)).filter (·.1 ≠ x) =
              [(a, c)].filter (·.1 ≠ x) ++ (as.zip cs).filter (·.1 ≠ x) := by
            intro c cs
            rw [List.zip_cons_cons, ← List.filter_append, List.singleton_append]
          refine congrArg Except.ok ((hsplit b' bs').trans (Eq.trans ?_ (hsplit b bs).symm))
          rw [hhead, htail]

end Each

-- What the environment would answer to calls that are not made does not matter.
theorem eval_congr (env' : (op : Op) → Except ε (Res op)) (p : Prog Op Res ε α)
    (h : ∀ op ∈ p.calls env, env' op = env op) :
    p.calls env' = p.calls env ∧ p.result env' = p.result env := by
  induction p with
  | ret a => exact ⟨rfl, rfl⟩
  | raise e => exact ⟨rfl, rfl⟩
  | call op k ih =>
      obtain ⟨hop, hrest⟩ := List.forall_mem_cons.mp h
      obtain ⟨hcalls, hresult⟩ := ih (env op) hrest
      rw [calls, result, hop]
      exact ⟨congrArg (op :: ·) hcalls, hresult⟩

end Prog

end V91Core.Effect
