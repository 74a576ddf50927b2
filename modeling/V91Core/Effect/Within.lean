import V91Core.Effect.Frame

namespace V91Core.Effect

variable {ι σ Op COp : Type} {Res : Op → Type} {CRes : COp → Type} {ε α β : Type}

namespace System

variable (S : System ι σ Op Res ε)

-- The system in which the operations are answered in this way only.
def limit (P : ι → σ → (op : Op) → Except ε (Res op) → Prop) : System ι σ Op Res ε where
  exec i s op r s' := S.exec i s op r s' ∧ P i s op r
  env := S.env

-- The first system does nothing that the second does not do.
structure Sub (S' S : System ι σ Op Res ε) : Prop where
  exec : ∀ i s op r s', S'.exec i s op r s' → S.exec i s op r s'
  env : ∀ s s', S'.env s s' → S.env s s'

variable {S}

theorem limit_sub (P : ι → σ → (op : Op) → Except ε (Res op) → Prop) : (S.limit P).Sub S :=
  ⟨fun _ _ _ _ _ h => h.1, fun _ _ h => h⟩

theorem Sub.reach [DecidableEq ι] {S' : System ι σ Op Res ε} (h : S'.Sub S) {p p' : Pool ι σ Op Res ε α}
    (hreach : S'.Reach p p') : S.Reach p p' := by
  induction hreach with
  | refl => exact .refl
  | tail _ hstep ih =>
      refine ih.tail ?_
      cases hstep with
      | call i op k r s hcall hexec => exact .call _ i op k r s hcall (h.exec i _ op r s hexec)
      | env s henv => exact .env _ s (h.env _ s henv)

theorem Sub.marked {S' : System ι σ Op Res ε} (h : S'.Sub S) (note : ι → σ → (c : COp) → Except ε (CRes c) → σ) :
    (S'.marked note).Sub (S.marked note) := by
  refine ⟨fun i s op r s' hexec => ?_, h.env⟩
  cases op with
  | op op => exact h.exec i s op r s' hexec
  | returned c answer => exact hexec

end System

namespace Contract

variable {S : System ι σ Op Res ε} (C : Contract S)

-- The same contract for a system that does less.
def sub {S' : System ι σ Op Res ε} (h : S'.Sub S) : Contract S' where
  Inv := C.Inv
  Rely := C.Rely
  Guar := C.Guar
  rely_refl := C.rely_refl
  rely_trans := C.rely_trans
  guar_refl := C.guar_refl
  rely_of_guar := C.rely_of_guar
  inv_of_env s s' hinv henv := C.inv_of_env s s' hinv (h.env s s' henv)
  rely_of_env i s s' hinv henv := C.rely_of_env i s s' hinv (h.env s s' henv)

-- The steps of the system that keep the contract.
def kept : System ι σ Op Res ε where
  exec i s op r s' := S.exec i s op r s' ∧ C.Inv s' ∧ C.Guar i s s'
  env := S.env

def within : Contract C.kept where
  Inv := C.Inv
  Rely := C.Rely
  Guar := C.Guar
  rely_refl := C.rely_refl
  rely_trans := C.rely_trans
  guar_refl := C.guar_refl
  rely_of_guar := C.rely_of_guar
  inv_of_env := C.inv_of_env
  rely_of_env := C.rely_of_env

variable {C} {i : ι} {post : σ → Except ε α → Prop}

theorem Sat.sub {S' : System ι σ Op Res ε} (hsub : S'.Sub S) {p : Prog Op Res ε α} {s : σ} (h : C.Sat i post p s) :
    (C.sub hsub).Sat i post p s := by
  induction p generalizing s with
  | ret a => exact h
  | raise e => exact h
  | call op k ih =>
      intro s' hrely hinv r s'' hexec
      obtain ⟨hinv', hguar, hk⟩ := h s' hrely hinv r s'' (hsub.exec _ _ _ _ _ hexec)
      exact ⟨hinv', hguar, ih r hk⟩

theorem Good.sub {S' : System ι σ Op Res ε} (hsub : S'.Sub S) {post : ι → σ → Except ε α → Prop}
    {p : Pool ι σ Op Res ε α} (h : C.Good post p) : (C.sub hsub).Good post p :=
  ⟨h.inv, fun i => (h.sat i).sub hsub⟩

-- After a program that returns.
theorem Sat.bind_ok {P : σ → Prop} {R : σ → β → Prop} {p : Prog Op Res ε β} {f : β → Prog Op Res ε α} {s : σ}
    (h : C.Sat i (fun s' r => P s' ∧ ∃ b, r = .ok b ∧ R s' b) p s)
    (hf : ∀ s' b, C.Inv s' → P s' → R s' b → C.Sat i post (f b) s') : C.Sat i post (p >>= f) s := by
  refine h.bind ?_ ?_
  · rintro s' b hinv ⟨hP, b', hb, hR⟩
    obtain rfl := Except.ok.inj hb
    exact hf s' b hinv hP hR
  · rintro s' e _ ⟨-, b, hb, -⟩
    cases hb

theorem sat_ofExcept_cases {x : Except ε β} {f : β → Prog Op Res ε α} {s : σ}
    (hok : ∀ b, x = .ok b → C.Sat i post (f b) s)
    (herror : ∀ e, x = .error e → ∀ s', C.Rely i s s' → C.Inv s' → post s' (.error e)) :
    C.Sat i post (Prog.ofExcept x >>= f) s := by
  cases x with
  | ok b => exact hok b rfl
  | error e => exact herror e rfl

-- The contract is kept by any program where no other steps are taken.
theorem sat_within_true (p : Prog Op Res ε α) (s : σ) : C.within.Sat i (fun _ _ => True) p s := by
  induction p generalizing s with
  | ret a => exact fun _ _ _ => trivial
  | raise e => exact fun _ _ _ => trivial
  | call op k ih => exact fun s' _ _ r s'' hexec => ⟨hexec.2.1, hexec.2.2, ih r s''⟩

theorem sat_within_perform {op : Op} {post : σ → Except ε (Res op) → Prop} {s : σ}
    (h : ∀ s', C.Rely i s s' → C.Inv s' → ∀ r s'', S.exec i s' op r s'' → C.Inv s'' → C.Guar i s' s'' →
      ∀ s''', C.Rely i s'' s''' → C.Inv s''' → post s''' r) : C.within.Sat i post (Prog.perform op) s :=
  sat_perform fun s' hrely hinv r s'' hexec =>
    ⟨hexec.2.1, hexec.2.2, h s' hrely hinv r s'' hexec.1 hexec.2.1 hexec.2.2⟩

theorem Good.kept_reach [DecidableEq ι] {post : ι → σ → Except ε α → Prop} {p p' : Pool ι σ Op Res ε α}
    (h : C.Good post p) (hreach : S.Reach p p') : C.kept.Reach p p' := by
  induction hreach with
  | refl => exact .refl
  | tail hreach hstep ih =>
      have hgood := h.reach hreach
      refine ih.tail ?_
      cases hstep with
      | call i op k r s hcall hexec =>
          have hi := hgood.sat i
          rw [hcall] at hi
          obtain ⟨hinv, hguar, -⟩ := hi _ (C.rely_refl _ _) hgood.inv r s hexec
          exact .call _ i op k r s hcall ⟨hexec, hinv, hguar⟩
      | env s henv => exact .env _ s henv

-- In a pool that keeps the contract, what a process ends with may be read off the
-- steps that keep it.
theorem Good.ends [DecidableEq ι] {post : ι → σ → Except ε α → Prop} {Q : σ → Except ε α → Prop}
    {p p' : Pool ι σ Op Res ε α} (h : C.Good post p) (hsat : C.within.Sat i Q (p.procs i) p.shared)
    (hreach : S.Reach p p') {a : α} (hret : p'.procs i = .ret a) : Q p'.shared (.ok a) := by
  have hgood : C.within.Good (fun j s r => j = i → Q s r) p := by
    refine ⟨h.inv, fun j => ?_⟩
    by_cases hj : j = i
    · subst hj
      exact hsat.mono fun _ _ _ hQ _ => hQ
    · exact (sat_within_true (p.procs j) p.shared).mono fun _ _ _ _ hji => absurd hji hj
  exact (hgood.reach (h.kept_reach hreach)).returned i a hret rfl

section Marked

variable {note : ι → σ → (c : COp) → Except ε (CRes c) → σ}

theorem Sat.lift_within {p : Prog Op Res ε α} {s : σ} (h : C.within.Sat i post p s) :
    (C.marked note).within.Sat i post (p.lift .op fun _ b => b) s := by
  induction p generalizing s with
  | ret a => exact h
  | raise e => exact h
  | call op k ih =>
      intro s' hrely hinv r s'' hexec
      obtain ⟨hinv', hguar, hk⟩ := h s' hrely hinv r s'' hexec
      refine ⟨hinv', hguar, ?_⟩
      cases r with
      | ok b => exact ih (.ok b) hk
      | error e => exact ih (.error e) hk

-- A function and the note of its return, of what the note does not matter for.
theorem Sat.marked_within {body : (c : COp) → Prog Op Res ε (CRes c)} {c : COp} {M : σ → Except ε (CRes c) → Prop}
    {s : σ} (h : C.within.Sat i M (body c) s)
    (hstable : ∀ s' s'' r, C.Rely i s' s'' → C.Inv s'' → M s' r → M s'' r)
    (hnote : ∀ s' r, M s' r → M (note i s' c r) r) : (C.marked note).within.Sat i M (Prog.marked body c) s := by
  refine h.lift_within.attempt.bind ?_ ?_
  · rintro s₁ answer hinv ⟨outcome, houtcome, hmid⟩
    obtain rfl := Except.ok.inj houtcome
    rintro s₂ hrely hinv' r s₃ ⟨⟨-, rfl⟩, hinv'', hguar⟩
    have hM := hnote s₂ answer (hstable _ _ _ hrely hinv' hmid)
    exact ⟨hinv'', hguar, sat_ofExcept fun s₄ hrely' hinv₄ => hstable _ _ _ hrely' hinv₄ hM⟩
  · rintro s' e _ ⟨outcome, houtcome, -⟩
    cases houtcome

end Marked

end Contract

end V91Core.Effect
