import V91Core.Effect.Marked

namespace V91Core.Effect

variable {ι σ Op COp : Type} {Res : Op → Type} {CRes : COp → Type} {ε α β : Type}

namespace Prog

-- Every operation that the program may perform is one of these.
def Only (Q : Op → Prop) : Prog Op Res ε α → Prop
  | .ret _ => True
  | .raise _ => True
  | .call op k => Q op ∧ ∀ r, (k r).Only Q

section Only

variable {Q : Op → Prop}

theorem only_ofExcept (r : Except ε α) : (ofExcept r : Prog Op Res ε α).Only Q := by
  cases r <;> trivial

theorem only_perform (op : Op) (h : Q op) : (perform op : Prog Op Res ε (Res op)).Only Q :=
  ⟨h, fun r => only_ofExcept r⟩

theorem only_true (p : Prog Op Res ε α) : p.Only fun _ => True := by
  induction p with
  | ret a => trivial
  | raise e => trivial
  | call op k ih => exact ⟨trivial, ih⟩

theorem Only.mono {Q' : Op → Prop} {p : Prog Op Res ε α} (h : p.Only Q) (hQ : ∀ op, Q op → Q' op) : p.Only Q' := by
  induction p with
  | ret a => trivial
  | raise e => trivial
  | call op k ih => exact ⟨hQ op h.1, fun r => ih r (h.2 r)⟩

theorem Only.bind {p : Prog Op Res ε α} {f : α → Prog Op Res ε β} (hp : p.Only Q) (hf : ∀ a, (f a).Only Q) :
    (p >>= f).Only Q := by
  induction p with
  | ret a => exact hf a
  | raise e => trivial
  | call op k ih => exact ⟨hp.1, fun r => ih r (hp.2 r)⟩

theorem Only.attempt {p : Prog Op Res ε α} (hp : p.Only Q) : p.attempt.Only Q := by
  induction p with
  | ret a => trivial
  | raise e => trivial
  | call op k ih => exact ⟨hp.1, fun r => ih r (hp.2 r)⟩

theorem Only.catching {p : Prog Op Res ε α} {handler : ε → Prog Op Res ε α} (hp : p.Only Q)
    (hhandler : ∀ e, (handler e).Only Q) : (p.catching handler).Only Q := by
  induction p with
  | ret a => trivial
  | raise e => exact hhandler e
  | call op k ih => exact ⟨hp.1, fun r => ih r (hp.2 r)⟩

theorem Only.finishing {p : Prog Op Res ε α} {cleanup : Prog Op Res ε Unit} (hp : p.Only Q)
    (hcleanup : cleanup.Only Q) : (Prog.finishing cleanup p).Only Q :=
  hp.attempt.bind fun outcome => hcleanup.bind fun _ => only_ofExcept outcome

theorem Only.lift {Op' : Type} {Res' : Op' → Type} {Q' : Op' → Prop} {emb : Op → Op'}
    {back : ∀ op, Res' (emb op) → Res op} {p : Prog Op Res ε α} (hp : p.Only Q) (hQ : ∀ op, Q op → Q' (emb op)) :
    (p.lift emb back).Only Q' := by
  induction p with
  | ret a => trivial
  | raise e => trivial
  | call op k ih => exact ⟨hQ op hp.1, fun r => ih _ (hp.2 _)⟩

-- The operations of the functions that are called, and their returns.
theorem Only.expand_marked {Q' : Marked Op COp CRes ε → Prop} {body : (c : COp) → Prog Op Res ε (CRes c)}
    {p : Prog COp CRes ε α} {QC : COp → Prop} (hp : p.Only QC)
    (hbody : ∀ c, QC c → (body c).Only fun op => Q' (.op op))
    (hreturned : ∀ c answer, QC c → Q' (.returned c answer)) : (p.expand (marked body)).Only Q' := by
  induction p with
  | ret a => trivial
  | raise e => trivial
  | call c k ih =>
      have hmarked : (marked body c).Only Q' :=
        ((hbody c hp.1).lift fun op h => h).attempt.bind fun answer =>
          ⟨hreturned c answer hp.1, fun _ => only_ofExcept answer⟩
      exact hmarked.attempt.bind fun r => ih r (hp.2 r)

end Only

end Prog

namespace Contract

variable {S : System ι σ Op Res ε} {C : Contract S} {i : ι}

-- A program that performs only operations which keep the contract from every state.
theorem sat_of_only {Q : Op → Prop}
    (hop : ∀ op s r s', Q op → C.Inv s → S.exec i s op r s' → C.Inv s' ∧ C.Guar i s s')
    {p : Prog Op Res ε α} (hp : p.Only Q) (s : σ) : C.Sat i (fun _ _ => True) p s := by
  induction p generalizing s with
  | ret a => exact fun _ _ _ => trivial
  | raise e => exact fun _ _ _ => trivial
  | call op k ih =>
      intro s' _ hinv r s'' hexec
      obtain ⟨hinv', hguar⟩ := hop op s' r s'' hp.1 hinv hexec
      exact ⟨hinv', hguar, ih r (hp.2 r) s''⟩

-- What the others keep and the operations of the program keep still holds when
-- the program ends.
theorem Sat.frame {Q : Op → Prop} {P : σ → Prop} (hstable : ∀ s s', C.Rely i s s' → P s → P s')
    (hop : ∀ op s r s', Q op → C.Inv s → S.exec i s op r s' → P s → P s') {post : σ → Except ε α → Prop}
    {p : Prog Op Res ε α} {s : σ} (h : C.Sat i post p s) (hp : p.Only Q) (hP : P s) :
    C.Sat i (fun s' r => P s' ∧ post s' r) p s := by
  induction p generalizing s with
  | ret a => exact fun s' hrely hinv => ⟨hstable s s' hrely hP, h s' hrely hinv⟩
  | raise e => exact fun s' hrely hinv => ⟨hstable s s' hrely hP, h s' hrely hinv⟩
  | call op k ih =>
      intro s' hrely hinv r s'' hexec
      obtain ⟨hinv', hguar, hk⟩ := h s' hrely hinv r s'' hexec
      exact ⟨hinv', hguar, ih r hk (hp.2 r) (hop op s' r s'' hp.1 hinv hexec (hstable s s' hrely hP))⟩

end Contract

section Part

variable {Op' : Type} {Res' : Op' → Type} (emb : Op → Op') (back : ∀ op, Res' (emb op) → Res op)

-- What some of the operations of a system do.
def System.comap (S : System ι σ Op' Res' ε) : System ι σ Op Res ε where
  exec i s op r s' := ∃ r', r = r'.map (back op) ∧ S.exec i s (emb op) r' s'
  env := S.env

namespace Contract

variable {S : System ι σ Op' Res' ε} (C : Contract S)

def comap : Contract (S.comap emb back) where
  Inv := C.Inv
  Rely := C.Rely
  Guar := C.Guar
  rely_refl := C.rely_refl
  rely_trans := C.rely_trans
  guar_refl := C.guar_refl
  rely_of_guar := C.rely_of_guar
  inv_of_env := C.inv_of_env
  rely_of_env := C.rely_of_env

variable {C emb back}

theorem Sat.comap {i : ι} {post : σ → Except ε α → Prop} {p : Prog Op Res ε α} {s : σ}
    (h : (C.comap emb back).Sat i post p s) : C.Sat i post (p.lift emb back) s := by
  induction p generalizing s with
  | ret a => exact h
  | raise e => exact h
  | call op k ih =>
      intro s' hrely hinv r s'' hexec
      obtain ⟨hinv', hguar, hk⟩ := h s' hrely hinv (r.map (back op)) s'' ⟨r, rfl, hexec⟩
      exact ⟨hinv', hguar, ih _ hk⟩

end Contract

end Part

end V91Core.Effect
