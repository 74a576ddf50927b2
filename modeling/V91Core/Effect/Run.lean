import Mathlib.Data.List.Basic

namespace V91Core.Effect

variable {State Event : Type*} (step : State → Event → State)

-- The state after these events.
def runFrom (s : State) (events : List Event) : State := events.foldl step s

-- `P` holds before the first event and after each one.
def Always (P : State → Prop) : State → List Event → Prop
  | s, [] => P s
  | s, e :: events => P s ∧ Always P (step s e) events

-- `Q` holds of every event in the state it happens in.
def EachStep (Q : State → Event → Prop) : State → List Event → Prop
  | _, [] => True
  | s, e :: events => Q s e ∧ EachStep Q (step s e) events

-- What the events of a run yield.
def collect {α : Type*} (f : State → Event → Option α) : State → List Event → List α
  | _, [] => []
  | s, e :: events => (f s e).toList ++ collect f (step s e) events

variable {step}

theorem runFrom_inv (Inv : State → Prop) (hstep : ∀ s e, Inv s → Inv (step s e)) (s : State)
    (events : List Event) (h : Inv s) : Inv (runFrom step s events) := by
  induction events generalizing s with
  | nil => exact h
  | cons e events ih => exact ih (step s e) (hstep s e h)

theorem runFrom_concat (s : State) (events : List Event) (e : Event) :
    runFrom step s (events ++ [e]) = step (runFrom step s events) e := List.foldl_append

theorem runFrom_append (s : State) (first rest : List Event) :
    runFrom step s (first ++ rest) = runFrom step (runFrom step s first) rest := List.foldl_append

theorem always_of_inv (Inv P : State → Prop) (Q : State → Event → Prop) (hP : ∀ s, Inv s → P s)
    (hstep : ∀ s e, Inv s → Q s e → Inv (step s e)) (s : State) (events : List Event) (h : Inv s)
    (hQ : EachStep step Q s events) : Always step P s events := by
  induction events generalizing s with
  | nil => exact hP s h
  | cons e events ih => exact ⟨hP s h, ih (step s e) (hstep s e h hQ.1) hQ.2⟩

-- A step that leads from one good state to another one must have met `Q`.
theorem always_iff_eachStep (Inv P : State → Prop) (Q : State → Event → Prop) (hP : ∀ s, Inv s → P s)
    (hstep : ∀ s e, Inv s → Q s e → Inv (step s e)) (hback : ∀ s e, Inv s → P (step s e) → Q s e)
    (s : State) (events : List Event) (h : Inv s) :
    Always step P s events ↔ EachStep step Q s events := by
  refine ⟨?_, always_of_inv Inv P Q hP hstep s events h⟩
  intro halways
  induction events generalizing s with
  | nil => trivial
  | cons e events ih =>
      have hnext : P (step s e) := by
        cases events with
        | nil => exact halways.2
        | cons e' events => exact halways.2.1
      have hQ := hback s e h hnext
      exact ⟨hQ, ih (step s e) (hstep s e h hQ) halways.2⟩

theorem always_iff_everywhere (P : State → Prop) (s : State) (events : List Event) :
    Always step P s events ↔ ∀ before, before <+: events → P (runFrom step s before) := by
  induction events generalizing s with
  | nil =>
      constructor
      · intro h before hbefore
        rw [List.prefix_nil.mp hbefore]
        exact h
      · exact fun h => h [] List.prefix_rfl
  | cons e events ih =>
      constructor
      · intro h before hbefore
        cases before with
        | nil => exact h.1
        | cons e' before =>
            obtain ⟨rfl, hrest⟩ := List.cons_prefix_cons.mp hbefore
            exact (ih (step s e')).mp h.2 before hrest
      · intro h
        refine ⟨h [] (List.nil_prefix), (ih (step s e)).mpr fun before hbefore => ?_⟩
        exact h (e :: before) (List.cons_prefix_cons.mpr ⟨rfl, hbefore⟩)

theorem eachStep_iff_split (Q : State → Event → Prop) (s : State) (events : List Event) :
    EachStep step Q s events ↔ ∀ before e, before ++ [e] <+: events → Q (runFrom step s before) e := by
  induction events generalizing s with
  | nil => simp [EachStep]
  | cons e events ih =>
      constructor
      · intro h before e' hbefore
        cases before with
        | nil =>
            obtain ⟨rfl, -⟩ := List.cons_prefix_cons.mp hbefore
            exact h.1
        | cons e'' before =>
            obtain ⟨rfl, hrest⟩ := List.cons_prefix_cons.mp hbefore
            exact (ih (step s e'')).mp h.2 before e' hrest
      · intro h
        refine ⟨h [] e (List.cons_prefix_cons.mpr ⟨rfl, List.nil_prefix⟩), ?_⟩
        exact (ih (step s e)).mpr fun before e' hbefore =>
          h (e :: before) e' (List.cons_prefix_cons.mpr ⟨rfl, hbefore⟩)

theorem eachStep_append (Q : State → Event → Prop) (s : State) (first rest : List Event) :
    EachStep step Q s (first ++ rest) ↔ EachStep step Q s first ∧ EachStep step Q (runFrom step s first) rest := by
  induction first generalizing s with
  | nil => exact (and_iff_right trivial).symm
  | cons e first ih =>
      rw [List.cons_append, EachStep, EachStep, ih (step s e), and_assoc]
      rfl

theorem EachStep.of_inv (Inv : State → Prop) (Q : State → Event → Prop) (hQ : ∀ s e, Inv s → Q s e)
    (hstep : ∀ s e, Inv s → Inv (step s e)) (s : State) (events : List Event) (h : Inv s) :
    EachStep step Q s events := by
  induction events generalizing s with
  | nil => trivial
  | cons e events ih => exact ⟨hQ s e h, ih (step s e) (hstep s e h)⟩

theorem EachStep.and {Q R : State → Event → Prop} {s : State} {events : List Event}
    (hQ : EachStep step Q s events) (hR : EachStep step R s events) :
    EachStep step (fun s e => Q s e ∧ R s e) s events := by
  induction events generalizing s with
  | nil => trivial
  | cons e events ih => exact ⟨⟨hQ.1, hR.1⟩, ih hQ.2 hR.2⟩

section Collect

variable {α : Type*} {f : State → Event → Option α}

theorem collect_concat (s : State) (events : List Event) (e : Event) :
    collect step f s (events ++ [e]) =
      collect step f s events ++ (f (runFrom step s events) e).toList := by
  induction events generalizing s with
  | nil => simp [collect, runFrom]
  | cons e' events ih =>
      rw [List.cons_append, collect, collect, ih (step s e'), List.append_assoc]
      rfl

theorem mem_collect_iff (s : State) (events : List Event) (a : α) :
    a ∈ collect step f s events ↔
      ∃ before e, before ++ [e] <+: events ∧ f (runFrom step s before) e = some a := by
  induction events generalizing s with
  | nil => simp [collect]
  | cons e events ih =>
      rw [collect, List.mem_append, Option.mem_toList, ih (step s e)]
      constructor
      · rintro (hnow | ⟨before, e', hbefore, hlater⟩)
        · exact ⟨[], e, List.cons_prefix_cons.mpr ⟨rfl, List.nil_prefix⟩, hnow⟩
        · exact ⟨e :: before, e', List.cons_prefix_cons.mpr ⟨rfl, hbefore⟩, hlater⟩
      · rintro ⟨before, e', hbefore, ha⟩
        cases before with
        | nil =>
            obtain ⟨rfl, -⟩ := List.cons_prefix_cons.mp hbefore
            exact .inl ha
        | cons e'' before =>
            obtain ⟨rfl, hrest⟩ := List.cons_prefix_cons.mp hbefore
            exact .inr ⟨before, e', hrest, ha⟩

-- A run that yields something has a last step that does.
theorem exists_last_of_collect (s : State) (events : List Event) (h : collect step f s events ≠ []) :
    ∃ before e later a, events = before ++ e :: later ∧ f (runFrom step s before) e = some a ∧
      collect step f (runFrom step s (before ++ [e])) later = [] := by
  induction events generalizing s with
  | nil => exact absurd rfl h
  | cons e events ih =>
      by_cases hrest : collect step f (step s e) events = []
      · rw [collect, hrest, List.append_nil] at h
        obtain ⟨a, ha⟩ : ∃ a, f s e = some a := by
          cases hf : f s e with
          | none => exact absurd (congrArg Option.toList hf) h
          | some a => exact ⟨a, rfl⟩
        exact ⟨[], e, events, a, rfl, ha, hrest⟩
      · obtain ⟨before, e', later, a, rfl, ha, hlater⟩ := ih (step s e) hrest
        exact ⟨e :: before, e', later, a, rfl, ha, hlater⟩

-- What a step yields is bound after the step, and a bound lasts.
theorem collect_bound (Q : State → Event → Prop) (Bound : State → α → Prop)
    (hyield : ∀ s e a, Q s e → f s e = some a → Bound (step s e) a)
    (hstep : ∀ s e a, Q s e → Bound s a → Bound (step s e) a) (s : State) (events : List Event)
    (hQ : EachStep step Q s events) : ∀ a ∈ collect step f s events, Bound (runFrom step s events) a := by
  have hlasts : ∀ (events : List Event) (s : State) (a : α), EachStep step Q s events → Bound s a →
      Bound (runFrom step s events) a := by
    intro events
    induction events with
    | nil => exact fun s a _ h => h
    | cons e events ih => exact fun s a hQ h => ih (step s e) a hQ.2 (hstep s e a hQ.1 h)
  induction events generalizing s with
  | nil => simp [collect]
  | cons e events ih =>
      intro a ha
      rcases List.mem_append.mp ha with hnow | hlater
      · exact hlasts events _ a hQ.2 (hyield s e a hQ.1 (Option.mem_toList.mp hnow))
      · exact ih (step s e) hQ.2 a hlater

theorem collect_pairwise (Q : State → Event → Prop) (Bound : State → α → Prop) (R : α → α → Prop)
    (hyield : ∀ s e a, Q s e → f s e = some a → Bound (step s e) a)
    (hstep : ∀ s e a, Q s e → Bound s a → Bound (step s e) a)
    (hnext : ∀ s e a b, Q s e → Bound s a → f s e = some b → R a b) (s : State) (events : List Event)
    (hQ : EachStep step Q s events) : (collect step f s events).Pairwise R := by
  have hlater : ∀ (events : List Event) (s : State) (a : α), EachStep step Q s events → Bound s a →
      ∀ b ∈ collect step f s events, R a b := by
    intro events
    induction events with
    | nil => simp [collect]
    | cons e events ih =>
        intro s a hQ ha b hb
        rcases List.mem_append.mp hb with hnow | hrest
        · exact hnext s e a b hQ.1 ha (Option.mem_toList.mp hnow)
        · exact ih (step s e) a hQ.2 (hstep s e a hQ.1 ha) b hrest
  induction events generalizing s with
  | nil => exact List.Pairwise.nil
  | cons e events ih =>
      rw [collect, List.pairwise_append]
      refine ⟨?_, ih (step s e) hQ.2, ?_⟩
      · cases f s e with
        | none => exact List.Pairwise.nil
        | some a => exact List.pairwise_singleton R a
      · intro a ha b hb
        exact hlater events (step s e) a hQ.2 (hyield s e a hQ.1 (Option.mem_toList.mp ha)) b hb

end Collect

end V91Core.Effect
