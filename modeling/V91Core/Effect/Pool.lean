import V91Core.Effect.Prog
import Mathlib.Logic.Function.Basic
import Mathlib.Logic.Relation

namespace V91Core.Effect

-- What an operation of process `i` may do to the shared state, and what the
-- outside world may do to it between two operations.
structure System (ι σ Op : Type) (Res : Op → Type) (ε : Type) where
  exec : ι → σ → (op : Op) → Except ε (Res op) → σ → Prop
  env : σ → σ → Prop

variable {ι σ Op : Type} {Res : Op → Type} {ε α β : Type}

-- Processes that take turns. One that is never chosen again has stopped.
structure Pool (ι σ Op : Type) (Res : Op → Type) (ε α : Type) where
  shared : σ
  procs : ι → Prog Op Res ε α

namespace System

variable [DecidableEq ι] (S : System ι σ Op Res ε)

inductive Step : Pool ι σ Op Res ε α → Pool ι σ Op Res ε α → Prop
  | call (p : Pool ι σ Op Res ε α) (i : ι) (op : Op) (k : Except ε (Res op) → Prog Op Res ε α)
      (r : Except ε (Res op)) (s : σ) (hcall : p.procs i = .call op k) (hexec : S.exec i p.shared op r s) :
      Step p ⟨s, Function.update p.procs i (k r)⟩
  | env (p : Pool ι σ Op Res ε α) (s : σ) (henv : S.env p.shared s) : Step p ⟨s, p.procs⟩

def Reach : Pool ι σ Op Res ε α → Pool ι σ Op Res ε α → Prop := Relation.ReflTransGen S.Step

end System

-- One way in which the operations may turn out.
structure Handler (S : System ι σ Op Res ε) where
  run : ι → σ → (op : Op) → Except ε (Res op) × σ
  sound : ∀ i s op, S.exec i s op (run i s op).1 (run i s op).2

namespace Handler

variable [DecidableEq ι] {S : System ι σ Op Res ε} (H : Handler S)

def turn (p : Pool ι σ Op Res ε α) (i : ι) : Pool ι σ Op Res ε α :=
  match p.procs i with
  | .call op k => ⟨(H.run i p.shared op).2, Function.update p.procs i (k (H.run i p.shared op).1)⟩
  | _ => p

theorem reach (turns : List ι) (p : Pool ι σ Op Res ε α) : S.Reach p (turns.foldl H.turn p) := by
  induction turns generalizing p with
  | nil => exact .refl
  | cons i turns ih =>
      refine Relation.ReflTransGen.trans ?_ (ih (H.turn p i))
      unfold turn
      split
      · rename_i op k hcall
        exact .single (.call p i op k _ _ hcall (H.sound i p.shared op))
      · exact .refl

end Handler

-- What a process relies on between its operations, and what each operation of it
-- guarantees to the others.
structure Contract (S : System ι σ Op Res ε) where
  Inv : σ → Prop
  Rely : ι → σ → σ → Prop
  Guar : ι → σ → σ → Prop
  rely_refl : ∀ i s, Rely i s s
  rely_trans : ∀ i s s' s'', Rely i s s' → Rely i s' s'' → Rely i s s''
  guar_refl : ∀ i s, Guar i s s
  rely_of_guar : ∀ i j s s', i ≠ j → Guar i s s' → Rely j s s'
  inv_of_env : ∀ s s', Inv s → S.env s s' → Inv s'
  rely_of_env : ∀ i s s', Inv s → S.env s s' → Rely i s s'

namespace Contract

variable {S : System ι σ Op Res ε} (C : Contract S) (i : ι) (post : σ → Except ε α → Prop)

-- Run by process `i` from this state, the program keeps the invariant and the
-- guarantee and ends with `post`, whatever the others do.
def Sat : Prog Op Res ε α → σ → Prop
  | .ret a, s => ∀ s', C.Rely i s s' → C.Inv s' → post s' (.ok a)
  | .raise e, s => ∀ s', C.Rely i s s' → C.Inv s' → post s' (.error e)
  | .call op k, s => ∀ s', C.Rely i s s' → C.Inv s' → ∀ r s'', S.exec i s' op r s'' →
      C.Inv s'' ∧ C.Guar i s' s'' ∧ Sat (k r) s''

section Rules

variable {C i post}

theorem Sat.rely {p : Prog Op Res ε α} {s s' : σ} (h : C.Sat i post p s) (hrely : C.Rely i s s') :
    C.Sat i post p s' := by
  cases p with
  | ret a => exact fun s'' h' => h s'' (C.rely_trans _ _ _ _ hrely h')
  | raise e => exact fun s'' h' => h s'' (C.rely_trans _ _ _ _ hrely h')
  | call op k => exact fun s'' h' => h s'' (C.rely_trans _ _ _ _ hrely h')

theorem sat_of_forall {p : Prog Op Res ε α} {s : σ}
    (h : ∀ s', C.Rely i s s' → C.Inv s' → C.Sat i post p s') : C.Sat i post p s := by
  cases p with
  | ret a => exact fun s' hrely hinv => h s' hrely hinv s' (C.rely_refl _ _) hinv
  | raise e => exact fun s' hrely hinv => h s' hrely hinv s' (C.rely_refl _ _) hinv
  | call op k => exact fun s' hrely hinv => h s' hrely hinv s' (C.rely_refl _ _) hinv

theorem sat_ofExcept {r : Except ε α} {s : σ} (h : ∀ s', C.Rely i s s' → C.Inv s' → post s' r) :
    C.Sat i post (Prog.ofExcept r) s := by
  cases r with
  | ok a => exact h
  | error e => exact h

theorem sat_ofExcept_bind {x : Except ε β} {f : β → Prog Op Res ε α} {s : σ}
    (hok : ∀ b, x = .ok b → C.Sat i post (f b) s)
    (herror : ∀ e s', C.Rely i s s' → C.Inv s' → post s' (.error e)) :
    C.Sat i post (Prog.ofExcept x >>= f) s := by
  cases x with
  | ok b => exact hok b rfl
  | error e => exact herror e

theorem Sat.mono {post' : σ → Except ε α → Prop} {p : Prog Op Res ε α} {s : σ} (h : C.Sat i post p s)
    (hpost : ∀ s' r, C.Inv s' → post s' r → post' s' r) : C.Sat i post' p s := by
  induction p generalizing s with
  | ret a => exact fun s' hrely hinv => hpost s' _ hinv (h s' hrely hinv)
  | raise e => exact fun s' hrely hinv => hpost s' _ hinv (h s' hrely hinv)
  | call op k ih =>
      intro s' hrely hinv r s'' hexec
      obtain ⟨hinv', hguar, hk⟩ := h s' hrely hinv r s'' hexec
      exact ⟨hinv', hguar, ih r hk⟩

theorem Sat.bind {M : σ → Except ε β → Prop} {p : Prog Op Res ε β} {f : β → Prog Op Res ε α} {s : σ}
    (h : C.Sat i M p s) (hok : ∀ s' b, C.Inv s' → M s' (.ok b) → C.Sat i post (f b) s')
    (herror : ∀ s' e, C.Inv s' → M s' (.error e) → post s' (.error e)) : C.Sat i post (p >>= f) s := by
  induction p generalizing s with
  | ret b => exact sat_of_forall fun s' hrely hinv => hok s' b hinv (h s' hrely hinv)
  | raise e => exact fun s' hrely hinv => herror s' e hinv (h s' hrely hinv)
  | call op k ih =>
      intro s' hrely hinv r s'' hexec
      obtain ⟨hinv', hguar, hk⟩ := h s' hrely hinv r s'' hexec
      exact ⟨hinv', hguar, ih r hk⟩

theorem Sat.catching {M : σ → Except ε α → Prop} {p : Prog Op Res ε α}
    {handler : ε → Prog Op Res ε α} {s : σ} (h : C.Sat i M p s)
    (hok : ∀ s' a, C.Inv s' → M s' (.ok a) → post s' (.ok a))
    (herror : ∀ s' e, C.Inv s' → M s' (.error e) → C.Sat i post (handler e) s') :
    C.Sat i post (p.catching handler) s := by
  induction p generalizing s with
  | ret a => exact fun s' hrely hinv => hok s' a hinv (h s' hrely hinv)
  | raise e => exact sat_of_forall fun s' hrely hinv => herror s' e hinv (h s' hrely hinv)
  | call op k ih =>
      intro s' hrely hinv r s'' hexec
      obtain ⟨hinv', hguar, hk⟩ := h s' hrely hinv r s'' hexec
      exact ⟨hinv', hguar, ih r hk⟩

theorem Sat.attempt {p : Prog Op Res ε α} {s : σ} (h : C.Sat i post p s) :
    C.Sat i (fun s' (r : Except ε (Except ε α)) => ∃ outcome, r = .ok outcome ∧ post s' outcome) p.attempt s := by
  induction p generalizing s with
  | ret a => exact fun s' hrely hinv => ⟨_, rfl, h s' hrely hinv⟩
  | raise e => exact fun s' hrely hinv => ⟨_, rfl, h s' hrely hinv⟩
  | call op k ih =>
      intro s' hrely hinv r s'' hexec
      obtain ⟨hinv', hguar, hk⟩ := h s' hrely hinv r s'' hexec
      exact ⟨hinv', hguar, ih r hk⟩

-- What a cleanup has to achieve after this outcome.
def AfterCleanup (post : σ → Except ε α → Prop) (outcome : Except ε α) (s : σ) : Except ε Unit → Prop
  | .ok _ => post s outcome
  | .error e => post s (.error e)

-- The cleanup runs after a result and after an exception.
theorem Sat.finishing {M : σ → Except ε α → Prop} {p : Prog Op Res ε α}
    {cleanup : Prog Op Res ε Unit} {s : σ} (h : C.Sat i M p s)
    (hcleanup : ∀ s' r, C.Inv s' → M s' r → C.Sat i (AfterCleanup post r) cleanup s')
    (hstable : ∀ s' s'' r, C.Rely i s' s'' → C.Inv s'' → post s' r → post s'' r) :
    C.Sat i post (Prog.finishing cleanup p) s := by
  refine h.attempt.bind ?_ ?_
  · rintro s' b hinv ⟨outcome, hb, hmid⟩
    obtain rfl := Except.ok.inj hb
    refine (hcleanup s' b hinv hmid).bind ?_ ?_
    · exact fun s'' _ hinv' hpost => sat_ofExcept fun s''' hrely hinv'' => hstable _ _ _ hrely hinv'' hpost
    · exact fun s'' e _ hpost => hpost
  · rintro s' e hinv ⟨outcome, hb, -⟩
    cases hb

-- An operation before which `P`, a property that the others keep, still holds.
theorem sat_perform_bind {op : Op} {f : Res op → Prog Op Res ε α} {s : σ} (P : σ → Prop)
    (hstable : ∀ s s', C.Rely i s s' → P s → P s') (hP : P s)
    (hexec : ∀ s' r s'', C.Inv s' → P s' → S.exec i s' op r s'' → C.Inv s'' ∧ C.Guar i s' s'' ∧
      match r with
      | .ok b => C.Sat i post (f b) s''
      | .error e => ∀ s''', C.Rely i s'' s''' → C.Inv s''' → post s''' (.error e)) :
    C.Sat i post (Prog.perform op >>= f) s := by
  intro s' hrely hinv r s'' hstep
  obtain ⟨hinv', hguar, hnext⟩ := hexec s' r s'' hinv (hstable s s' hrely hP) hstep
  refine ⟨hinv', hguar, ?_⟩
  cases r with
  | ok b => exact hnext
  | error e => exact hnext

-- An operation that leaves the state as it is.
theorem sat_quiet_bind {op : Op} {f : Res op → Prog Op Res ε α} {s : σ}
    (hquiet : ∀ s r s', S.exec i s op r s' → s' = s) (P : σ → Prop)
    (hstable : ∀ s s', C.Rely i s s' → P s → P s') (hP : P s)
    (hok : ∀ b s', C.Inv s' → P s' → C.Sat i post (f b) s')
    (herror : ∀ e s', C.Inv s' → P s' → post s' (.error e)) :
    C.Sat i post (Prog.perform op >>= f) s := by
  refine sat_perform_bind P hstable hP fun s' r s'' hinv hP' hexec => ?_
  obtain rfl := hquiet s' r s'' hexec
  refine ⟨hinv, C.guar_refl i s'', ?_⟩
  cases r with
  | ok b => exact hok b s'' hinv hP'
  | error e => exact fun s''' hrely hinv' => herror e s''' hinv' (hstable _ _ hrely hP')

theorem sat_perform {op : Op} {post : σ → Except ε (Res op) → Prop} {s : σ}
    (h : ∀ s', C.Rely i s s' → C.Inv s' → ∀ r s'', S.exec i s' op r s'' →
      C.Inv s'' ∧ C.Guar i s' s'' ∧ ∀ s''', C.Rely i s'' s''' → C.Inv s''' → post s''' r) :
    C.Sat i post (Prog.perform op) s := by
  intro s' hrely hinv r s'' hexec
  obtain ⟨hinv', hguar, hpost⟩ := h s' hrely hinv r s'' hexec
  exact ⟨hinv', hguar, sat_ofExcept hpost⟩

theorem sat_quiet {op : Op} {post : σ → Except ε (Res op) → Prop} {s : σ}
    (hquiet : ∀ s r s', S.exec i s op r s' → s' = s) (P : σ → Prop)
    (hstable : ∀ s s', C.Rely i s s' → P s → P s') (hP : P s)
    (hpost : ∀ r s', C.Inv s' → P s' → post s' r) : C.Sat i post (Prog.perform op) s := by
  refine sat_perform fun s' hrely hinv r s'' hexec => ?_
  obtain rfl := hquiet s' r s'' hexec
  have hP' := hstable _ _ hrely hP
  exact ⟨hinv, C.guar_refl i s'', fun s''' hrely' hinv' => hpost r s''' hinv' (hstable _ _ hrely' hP')⟩

end Rules

section Soundness

-- Every process of the pool meets the contract from here on.
structure Good (post : ι → σ → Except ε α → Prop) (p : Pool ι σ Op Res ε α) : Prop where
  inv : C.Inv p.shared
  sat : ∀ i, C.Sat i (post i) (p.procs i) p.shared

variable {C} {post : ι → σ → Except ε α → Prop} {p p' : Pool ι σ Op Res ε α}

theorem Good.step [DecidableEq ι] (h : C.Good post p) (hstep : S.Step p p') : C.Good post p' := by
  cases hstep with
  | call i op k r s hcall hexec =>
      have hi := h.sat i
      rw [hcall] at hi
      obtain ⟨hinv, hguar, hk⟩ := hi p.shared (C.rely_refl _ _) h.inv r s hexec
      refine ⟨hinv, fun j => ?_⟩
      by_cases hj : j = i
      · subst hj
        simpa using hk
      · simpa [hj] using (h.sat j).rely (C.rely_of_guar i j _ _ (Ne.symm hj) hguar)
  | env s henv =>
      exact ⟨C.inv_of_env _ _ h.inv henv, fun j => (h.sat j).rely (C.rely_of_env j _ _ h.inv henv)⟩

theorem Good.reach [DecidableEq ι] (h : C.Good post p) (hreach : S.Reach p p') : C.Good post p' := by
  induction hreach with
  | refl => exact h
  | tail _ hstep ih => exact ih.step hstep

theorem Good.guar (h : C.Good post p) (i : ι) (op : Op) (k : Except ε (Res op) → Prog Op Res ε α)
    (r : Except ε (Res op)) (s : σ) (hcall : p.procs i = .call op k) (hexec : S.exec i p.shared op r s) :
    C.Guar i p.shared s := by
  have hi := h.sat i
  rw [hcall] at hi
  exact (hi p.shared (C.rely_refl _ _) h.inv r s hexec).2.1

theorem Good.returned (h : C.Good post p) (i : ι) (a : α) (hret : p.procs i = .ret a) :
    post i p.shared (.ok a) := by
  have hi := h.sat i
  rw [hret] at hi
  exact hi p.shared (C.rely_refl _ _) h.inv

theorem Good.raised (h : C.Good post p) (i : ι) (e : ε) (hraise : p.procs i = .raise e) :
    post i p.shared (.error e) := by
  have hi := h.sat i
  rw [hraise] at hi
  exact hi p.shared (C.rely_refl _ _) h.inv

end Soundness

end Contract

end V91Core.Effect
