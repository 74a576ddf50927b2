import V91Core.Effect.Pool

namespace V91Core.Effect

variable {ι σ Op : Type} {Res : Op → Type} {ε α : Type}

-- One way in which some of the operations may turn out.
structure Driver (S : System ι σ Op Res ε) where
  run : ι → σ → (op : Op) → Option (Except ε (Res op) × σ)
  sound : ∀ i s op r s', run i s op = some (r, s') → S.exec i s op r s'

namespace Driver

variable [DecidableEq ι] {S : System ι σ Op Res ε} (D : Driver S)

-- A turn of a process that has ended changes nothing.
def turn (p : Pool ι σ Op Res ε α) (i : ι) : Option (Pool ι σ Op Res ε α) :=
  match p.procs i with
  | .call op k => (D.run i p.shared op).map fun (r, s) => ⟨s, Function.update p.procs i (k r)⟩
  | _ => some p

def play (turns : List ι) (p : Pool ι σ Op Res ε α) : Option (Pool ι σ Op Res ε α) := turns.foldlM D.turn p

theorem turn_reach (p p' : Pool ι σ Op Res ε α) (i : ι) (h : D.turn p i = some p') : S.Reach p p' := by
  unfold turn at h
  split at h
  · next op k hcall =>
      obtain ⟨⟨r, s⟩, hrun, rfl⟩ := Option.map_eq_some_iff.mp h
      exact .single (.call p i op k r s hcall (D.sound i p.shared op r s hrun))
  · obtain rfl := Option.some.inj h
    exact .refl

theorem play_reach (turns : List ι) (p p' : Pool ι σ Op Res ε α) (h : D.play turns p = some p') : S.Reach p p' := by
  induction turns generalizing p with
  | nil =>
      obtain rfl := Option.some.inj h
      exact .refl
  | cons i turns ih =>
      rw [play, List.foldlM_cons] at h
      obtain ⟨next, hturn, hrest⟩ := Option.bind_eq_some_iff.mp h
      exact (D.turn_reach p next i hturn).trans (ih next hrest)

end Driver

end V91Core.Effect
