import V91Core.Effect.Prog

namespace V91Core.Effect

-- An operation with its answer.
structure Answered (Op : Type) (Res : Op → Type) (ε : Type) where
  op : Op
  answer : Except ε (Res op)

namespace Prog

variable {Op : Type} {Res : Op → Type} {ε α β Event σ : Type}

-- The events of a complete run of a program and how the program ended. `Ans`
-- says which operation an event is and how it was answered.
inductive Runs (Ans : Event → (op : Op) → Except ε (Res op) → Prop) :
    Prog Op Res ε α → List Event → Except ε α → Prop
  | ret (a : α) : Runs Ans (.ret a) [] (.ok a)
  | raise (e : ε) : Runs Ans (.raise e) [] (.error e)
  | call (op : Op) (k : Except ε (Res op) → Prog Op Res ε α) (event : Event) (r : Except ε (Res op))
      (events : List Event) (out : Except ε α) (hans : Ans event op r) (hrest : Runs Ans (k r) events out) :
      Runs Ans (.call op k) (event :: events) out

section Inversion

variable {Ans : Event → (op : Op) → Except ε (Res op) → Prop}

theorem runs_ret (a : α) (events : List Event) (out : Except ε α) :
    Runs Ans (Prog.ret a : Prog Op Res ε α) events out ↔ events = [] ∧ out = .ok a := by
  constructor
  · intro h
    cases h
    exact ⟨rfl, rfl⟩
  · rintro ⟨rfl, rfl⟩
    exact .ret a

theorem runs_raise (e : ε) (events : List Event) (out : Except ε α) :
    Runs Ans (Prog.raise e : Prog Op Res ε α) events out ↔ events = [] ∧ out = .error e := by
  constructor
  · intro h
    cases h
    exact ⟨rfl, rfl⟩
  · rintro ⟨rfl, rfl⟩
    exact .raise e

theorem runs_call (op : Op) (k : Except ε (Res op) → Prog Op Res ε α) (events : List Event)
    (out : Except ε α) :
    Runs Ans (.call op k) events out ↔
      ∃ event r rest, events = event :: rest ∧ Ans event op r ∧ Runs Ans (k r) rest out := by
  constructor
  · intro h
    cases h with
    | call _ _ event r rest _ hans hrest => exact ⟨event, r, rest, rfl, hans, hrest⟩
  · rintro ⟨event, r, rest, rfl, hans, hrest⟩
    exact .call op k event r rest out hans hrest

theorem runs_ofExcept (r : Except ε α) (events : List Event) (out : Except ε α) :
    Runs Ans (ofExcept r : Prog Op Res ε α) events out ↔ events = [] ∧ out = r := by
  cases r with
  | ok a => exact runs_ret a events out
  | error e => exact runs_raise e events out

theorem runs_perform (op : Op) (events : List Event) (out : Except ε (Res op)) :
    Runs Ans (perform op) events out ↔ ∃ event, events = [event] ∧ Ans event op out := by
  rw [perform, runs_call]
  constructor
  · rintro ⟨event, r, rest, rfl, hans, hrest⟩
    obtain ⟨rfl, rfl⟩ := (runs_ofExcept _ _ _).mp hrest
    exact ⟨event, rfl, hans⟩
  · rintro ⟨event, rfl, hans⟩
    exact ⟨event, out, [], rfl, hans, (runs_ofExcept _ _ _).mpr ⟨rfl, rfl⟩⟩

-- Either the first part raises, or the second one runs on its result.
theorem runs_bind (p : Prog Op Res ε α) (f : α → Prog Op Res ε β) (events : List Event) (out : Except ε β) :
    Runs Ans (p >>= f) events out ↔
      (∃ a first rest, events = first ++ rest ∧ Runs Ans p first (.ok a) ∧ Runs Ans (f a) rest out) ∨
        ∃ e, out = .error e ∧ Runs Ans p events (.error e) := by
  induction p generalizing events with
  | ret a =>
      rw [bind_ret]
      constructor
      · exact fun h => .inl ⟨a, [], events, rfl, .ret a, h⟩
      · rintro (⟨b, first, rest, rfl, hp, hf⟩ | ⟨e, rfl, hp⟩)
        · cases hp
          exact hf
        · cases hp
  | raise e =>
      rw [bind_raise]
      constructor
      · intro h
        cases h
        exact .inr ⟨e, rfl, .raise e⟩
      · rintro (⟨b, first, rest, rfl, hp, hf⟩ | ⟨e', rfl, hp⟩)
        · cases hp
        · cases hp
          exact .raise e
  | call op k ih =>
      rw [bind_call]
      constructor
      · intro h
        obtain ⟨event, r, rest, rfl, hans, hrest⟩ := (runs_call _ _ _ _).mp h
        rcases (ih r rest).mp hrest with ⟨a, first, rest, rfl, hp, hf⟩ | ⟨e, rfl, hp⟩
        · exact .inl ⟨a, event :: first, rest, rfl, .call op k event r first _ hans hp, hf⟩
        · exact .inr ⟨e, rfl, .call op k event r rest _ hans hp⟩
      · rintro (⟨a, first, rest, rfl, hp, hf⟩ | ⟨e, rfl, hp⟩)
        · obtain ⟨event, r, first, rfl, hans, hp⟩ := (runs_call _ _ _ _).mp hp
          exact .call _ _ event r _ _ hans ((ih r _).mpr (.inl ⟨a, first, rest, rfl, hp, hf⟩))
        · obtain ⟨event, r, rest, rfl, hans, hp⟩ := (runs_call _ _ _ _).mp hp
          exact .call _ _ event r _ _ hans ((ih r _).mpr (.inr ⟨e, rfl, hp⟩))

theorem runs_bind_ok (p : Prog Op Res ε α) (f : α → Prog Op Res ε β) (events : List Event) (b : β) :
    Runs Ans (p >>= f) events (.ok b) ↔
      ∃ a first rest, events = first ++ rest ∧ Runs Ans p first (.ok a) ∧ Runs Ans (f a) rest (.ok b) := by
  rw [runs_bind]
  simp

theorem runs_perform_bind (op : Op) (f : Res op → Prog Op Res ε α) (events : List Event)
    (out : Except ε α) :
    Runs Ans (perform op >>= f) events out ↔
      (∃ event b rest, events = event :: rest ∧ Ans event op (.ok b) ∧ Runs Ans (f b) rest out) ∨
        ∃ event e, events = [event] ∧ out = .error e ∧ Ans event op (.error e) := by
  rw [runs_bind]
  simp only [runs_perform]
  constructor
  · rintro (⟨b, first, rest, rfl, ⟨event, rfl, hans⟩, hf⟩ | ⟨e, rfl, event, rfl, hans⟩)
    · exact .inl ⟨event, b, rest, rfl, hans, hf⟩
    · exact .inr ⟨event, e, rfl, rfl, hans⟩
  · rintro (⟨event, b, rest, rfl, hans, hf⟩ | ⟨event, e, rfl, rfl, hans⟩)
    · exact .inl ⟨b, [event], rest, rfl, ⟨event, rfl, hans⟩, hf⟩
    · exact .inr ⟨e, rfl, event, rfl, hans⟩

theorem runs_attempt (p : Prog Op Res ε α) (events : List Event) (out : Except ε (Except ε α)) :
    Runs Ans p.attempt events out ↔ ∃ outcome, out = .ok outcome ∧ Runs Ans p events outcome := by
  induction p generalizing events with
  | ret a =>
      rw [attempt, runs_ret]
      constructor
      · rintro ⟨rfl, rfl⟩
        exact ⟨.ok a, rfl, .ret a⟩
      · rintro ⟨outcome, rfl, hp⟩
        cases hp
        exact ⟨rfl, rfl⟩
  | raise e =>
      rw [attempt, runs_ret]
      constructor
      · rintro ⟨rfl, rfl⟩
        exact ⟨.error e, rfl, .raise e⟩
      · rintro ⟨outcome, rfl, hp⟩
        cases hp
        exact ⟨rfl, rfl⟩
  | call op k ih =>
      rw [attempt, runs_call]
      constructor
      · rintro ⟨event, r, rest, rfl, hans, hrest⟩
        obtain ⟨outcome, rfl, hp⟩ := (ih r rest).mp hrest
        exact ⟨outcome, rfl, .call op k event r rest outcome hans hp⟩
      · rintro ⟨outcome, rfl, hp⟩
        obtain ⟨event, r, rest, rfl, hans, hp⟩ := (runs_call _ _ _ _).mp hp
        exact ⟨event, r, rest, rfl, hans, (ih r rest).mpr ⟨outcome, rfl, hp⟩⟩

theorem runs_catching (p : Prog Op Res ε α) (handler : ε → Prog Op Res ε α) (events : List Event)
    (out : Except ε α) :
    Runs Ans (p.catching handler) events out ↔
      (∃ a, out = .ok a ∧ Runs Ans p events (.ok a)) ∨
        ∃ e first rest, events = first ++ rest ∧ Runs Ans p first (.error e) ∧
          Runs Ans (handler e) rest out := by
  induction p generalizing events with
  | ret a =>
      rw [catching]
      constructor
      · intro h
        cases h
        exact .inl ⟨a, rfl, .ret a⟩
      · rintro (⟨b, rfl, hp⟩ | ⟨e, first, rest, rfl, hp, hhandler⟩)
        · exact hp
        · cases hp
  | raise e =>
      rw [catching]
      constructor
      · exact fun h => .inr ⟨e, [], events, rfl, .raise e, h⟩
      · rintro (⟨b, rfl, hp⟩ | ⟨e', first, rest, rfl, hp, hhandler⟩)
        · cases hp
        · cases hp
          exact hhandler
  | call op k ih =>
      rw [catching, runs_call]
      constructor
      · rintro ⟨event, r, rest, rfl, hans, hrest⟩
        rcases (ih r rest).mp hrest with ⟨a, rfl, hp⟩ | ⟨e, first, rest, rfl, hp, hhandler⟩
        · exact .inl ⟨a, rfl, .call op k event r rest _ hans hp⟩
        · exact .inr ⟨e, event :: first, rest, rfl, .call op k event r first _ hans hp, hhandler⟩
      · rintro (⟨a, rfl, hp⟩ | ⟨e, first, rest, rfl, hp, hhandler⟩)
        · obtain ⟨event, r, rest, rfl, hans, hp⟩ := (runs_call _ _ _ _).mp hp
          exact ⟨event, r, rest, rfl, hans, (ih r rest).mpr (.inl ⟨a, rfl, hp⟩)⟩
        · obtain ⟨event, r, first, rfl, hans, hp⟩ := (runs_call _ _ _ _).mp hp
          exact ⟨event, r, first ++ rest, rfl, hans, (ih r _).mpr (.inr ⟨e, first, rest, rfl, hp, hhandler⟩)⟩

-- The cleanup runs in every case, and its exception replaces the outcome.
theorem runs_finishing (p : Prog Op Res ε α) (cleanup : Prog Op Res ε Unit) (events : List Event)
    (out : Except ε α) :
    Runs Ans (finishing cleanup p) events out ↔
      ∃ outcome first rest, events = first ++ rest ∧ Runs Ans p first outcome ∧
        (Runs Ans cleanup rest (.ok ()) ∧ out = outcome ∨
          ∃ e, out = .error e ∧ Runs Ans cleanup rest (.error e)) := by
  rw [finishing, runs_bind]
  simp only [runs_attempt, runs_bind, runs_ofExcept]
  constructor
  · rintro (⟨outcome, first, rest, rfl, ⟨outcome', houtcome, hp⟩, hrest⟩ | ⟨e, rfl, _, h, -⟩)
    · obtain rfl := Except.ok.inj houtcome
      refine ⟨outcome, first, rest, rfl, hp, ?_⟩
      rcases hrest with ⟨_, first', _, rfl, hcleanup, rfl, rfl⟩ | ⟨e, rfl, hcleanup⟩
      · exact .inl ⟨by rwa [List.append_nil], rfl⟩
      · exact .inr ⟨e, rfl, hcleanup⟩
    · cases h
  · rintro ⟨outcome, first, rest, rfl, hp, hcleanup | ⟨e, rfl, hcleanup⟩⟩
    · obtain ⟨hcleanup, rfl⟩ := hcleanup
      exact .inl ⟨_, first, rest, rfl, ⟨_, rfl, hp⟩,
        .inl ⟨(), rest, [], by simp, hcleanup, rfl, rfl⟩⟩
    · exact .inl ⟨_, first, rest, rfl, ⟨_, rfl, hp⟩, .inr ⟨e, rfl, hcleanup⟩⟩

end Inversion

section Emits

variable (Ans : Event → (op : Op) → Except ε (Res op) → Prop) (P : Event → Prop)

-- Every event of every run of the program has the property.
def Emits (p : Prog Op Res ε α) : Prop := ∀ events out, Runs Ans p events out → ∀ event ∈ events, P event

variable {Ans P}

theorem emits_ofExcept (r : Except ε α) : Emits Ans P (ofExcept r : Prog Op Res ε α) := by
  intro events out h
  obtain ⟨rfl, -⟩ := (runs_ofExcept _ _ _).mp h
  simp

theorem emits_ret (a : α) : Emits Ans P (Prog.ret a : Prog Op Res ε α) := emits_ofExcept (.ok a)

theorem emits_raise (e : ε) : Emits Ans P (Prog.raise e : Prog Op Res ε α) := emits_ofExcept (.error e)

theorem emits_perform (op : Op) (hop : ∀ event r, Ans event op r → P event) : Emits Ans P (perform op) := by
  intro events out h
  obtain ⟨event, rfl, hans⟩ := (runs_perform _ _ _).mp h
  simpa using hop event out hans

theorem Emits.bind {p : Prog Op Res ε α} {f : α → Prog Op Res ε β} (hp : Emits Ans P p)
    (hf : ∀ a, Emits Ans P (f a)) : Emits Ans P (p >>= f) := by
  intro events out h
  rcases (runs_bind _ _ _ _).mp h with ⟨a, first, rest, rfl, hfirst, hrest⟩ | ⟨e, rfl, hfirst⟩
  · exact List.forall_mem_append.mpr ⟨hp _ _ hfirst, hf a _ _ hrest⟩
  · exact hp _ _ hfirst

theorem Emits.attempt {p : Prog Op Res ε α} (hp : Emits Ans P p) : Emits Ans P p.attempt := by
  intro events out h
  obtain ⟨outcome, rfl, hrun⟩ := (runs_attempt _ _ _).mp h
  exact hp _ _ hrun

theorem Emits.catching {p : Prog Op Res ε α} {handler : ε → Prog Op Res ε α} (hp : Emits Ans P p)
    (hhandler : ∀ e, Emits Ans P (handler e)) : Emits Ans P (p.catching handler) := by
  intro events out h
  rcases (runs_catching _ _ _ _).mp h with ⟨a, rfl, hrun⟩ | ⟨e, first, rest, rfl, hfirst, hrest⟩
  · exact hp _ _ hrun
  · exact List.forall_mem_append.mpr ⟨hp _ _ hfirst, hhandler e _ _ hrest⟩

theorem Emits.finishing {p : Prog Op Res ε α} {cleanup : Prog Op Res ε Unit} (hp : Emits Ans P p)
    (hcleanup : Emits Ans P cleanup) : Emits Ans P (Prog.finishing cleanup p) :=
  hp.attempt.bind fun outcome => hcleanup.bind fun _ => emits_ofExcept outcome

theorem emits_lift {Op' : Type} {Res' : Op' → Type} {Ans : Event → (op : Op') → Except ε (Res' op) → Prop}
    {P : Event → Prop} (emb : Op → Op') (back : ∀ op, Res' (emb op) → Res op)
    (hans : ∀ event op r, Ans event (emb op) r → P event) (p : Prog Op Res ε α) :
    Emits Ans P (p.lift emb back) := by
  induction p with
  | ret a => exact emits_ret a
  | raise e => exact emits_raise e
  | call op k ih =>
      intro events out h
      obtain ⟨event, r, rest, rfl, hevent, hrest⟩ := (runs_call _ _ _ _).mp h
      exact List.forall_mem_cons.mpr ⟨hans event op r hevent, ih _ _ _ hrest⟩

end Emits

section Faults

variable (Ans : Event → (op : Op) → Except ε (Res op) → Prop) (Fault : Event → Prop)

-- The program returns when no event is a fault, and raises when one is.
def ReturnsUnless (p : Prog Op Res ε α) : Prop :=
  ∀ events out, Runs Ans p events out → ((∃ a, out = .ok a) ↔ ∀ event ∈ events, ¬ Fault event)

variable {Ans Fault}

theorem returnsUnless_perform (op : Op)
    (hop : ∀ event r, Ans event op r → (Fault event ↔ ∃ e, r = .error e)) :
    ReturnsUnless Ans Fault (perform op) := by
  intro events out h
  obtain ⟨event, rfl, hans⟩ := (runs_perform _ _ _).mp h
  cases out with
  | ok b => simp [hop event _ hans]
  | error e => simp [hop event _ hans]

theorem ReturnsUnless.bind {p : Prog Op Res ε α} {f : α → Prog Op Res ε β} (hp : ReturnsUnless Ans Fault p)
    (hf : ∀ a, ReturnsUnless Ans Fault (f a)) : ReturnsUnless Ans Fault (p >>= f) := by
  intro events out h
  rcases (runs_bind _ _ _ _).mp h with ⟨a, first, rest, rfl, hfirst, hrest⟩ | ⟨e, rfl, hfirst⟩
  · have hquiet := (hp _ _ hfirst).mp ⟨a, rfl⟩
    rw [hf a _ _ hrest]
    simp only [List.mem_append, or_imp, forall_and, and_iff_right hquiet]
  · rw [← hp _ _ hfirst]
    simp

theorem ReturnsUnless.finishing {p : Prog Op Res ε α} {cleanup : Prog Op Res ε Unit}
    (hp : ReturnsUnless Ans Fault p) (hcleanup : ReturnsUnless Ans Fault cleanup) :
    ReturnsUnless Ans Fault (Prog.finishing cleanup p) := by
  intro events out h
  obtain ⟨outcome, first, rest, rfl, hfirst, hrest⟩ := (runs_finishing _ _ _ _).mp h
  simp only [List.mem_append, or_imp, forall_and, ← hp _ _ hfirst]
  rcases hrest with ⟨hrest, rfl⟩ | ⟨e, rfl, hrest⟩
  · rw [← hcleanup _ _ hrest]
    simp
  · rw [← hcleanup _ _ hrest]
    simp

end Faults

theorem runs_lift {Op' : Type} {Res' : Op' → Type} {Ans : Event → (op : Op') → Except ε (Res' op) → Prop}
    (emb : Op → Op') (back : ∀ op, Res' (emb op) → Res op) (p : Prog Op Res ε α) (events : List Event)
    (out : Except ε α) :
    Runs Ans (p.lift emb back) events out ↔
      Runs (fun event op r => ∃ r', r = r'.map (back op) ∧ Ans event (emb op) r') p events out := by
  induction p generalizing events with
  | ret a => rw [lift, runs_ret, runs_ret]
  | raise e => rw [lift, runs_raise, runs_raise]
  | call op k ih =>
      rw [lift, runs_call, runs_call]
      constructor
      · rintro ⟨event, r, rest, rfl, hans, hrest⟩
        exact ⟨event, _, rest, rfl, ⟨r, rfl, hans⟩, (ih _ rest).mp hrest⟩
      · rintro ⟨event, _, rest, rfl, ⟨r, rfl, hans⟩, hrest⟩
        exact ⟨event, r, rest, rfl, hans, (ih _ rest).mpr hrest⟩

-- The run in which `answer` answers the operations.
def play (answer : σ → (op : Op) → Event × Except ε (Res op) × σ) :
    Prog Op Res ε α → σ → List Event × Except ε α × σ
  | .ret a, s => ([], .ok a, s)
  | .raise e, s => ([], .error e, s)
  | .call op k, s =>
      let (event, r, s) := answer s op
      let (events, out) := (k r).play answer s
      (event :: events, out)

theorem play_runs {Ans : Event → (op : Op) → Except ε (Res op) → Prop}
    (answer : σ → (op : Op) → Event × Except ε (Res op) × σ)
    (hans : ∀ s op, Ans (answer s op).1 op (answer s op).2.1) (p : Prog Op Res ε α) (s : σ) :
    Runs Ans p (p.play answer s).1 (p.play answer s).2.1 := by
  induction p generalizing s with
  | ret a => exact .ret a
  | raise e => exact .raise e
  | call op k ih => exact .call op k _ _ _ _ (hans s op) (ih _ _)

end Prog

end V91Core.Effect
