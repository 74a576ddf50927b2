import Mathlib.Data.List.Induction

namespace V91Core.Effect

-- A machine that answers each input from its state.
structure Mealy (State Input Output : Type*) where
  init : State
  step : State → Input → State
  output : State → Input → Output

namespace Mealy

variable {State Input Output : Type*} (m : Mealy State Input Output)

def after (s : State) (inputs : List Input) : State := inputs.foldl m.step s

def outputs : State → List Input → List Output
  | _, [] => []
  | s, i :: inputs => m.output s i :: outputs (m.step s i) inputs

-- The outputs when each session starts a machine of its own.
def sessionOutputs (sessions : List (List Input)) : List Output := sessions.flatMap (m.outputs m.init)

-- The next state is what the output says.
def Recalls (next : Output → State) : Prop := ∀ s i, m.step s i = next (m.output s i)

-- No session starts with an input that the machine would answer differently if
-- it had gone on.
def Seamless : State → List (List Input) → Prop
  | _, [] => True
  | s, [] :: sessions => Seamless s sessions
  | s, (i :: inputs) :: sessions =>
      m.output s i = m.output m.init i ∧ Seamless (m.after s (i :: inputs)) sessions

theorem outputs_length (s : State) (inputs : List Input) :
    (m.outputs s inputs).length = inputs.length := by
  induction inputs generalizing s with
  | nil => rfl
  | cons i inputs ih => rw [outputs, List.length_cons, ih, List.length_cons]

theorem outputs_append (s : State) (first rest : List Input) :
    m.outputs s (first ++ rest) = m.outputs s first ++ m.outputs (m.after s first) rest := by
  induction first generalizing s with
  | nil => rfl
  | cons i first ih =>
      rw [List.cons_append, outputs, outputs, ih, List.cons_append]
      rfl

theorem after_append (s : State) (first rest : List Input) :
    m.after s (first ++ rest) = m.after (m.after s first) rest := List.foldl_append

theorem outputs_concat (s : State) (inputs : List Input) (i : Input) :
    m.outputs s (inputs ++ [i]) = m.outputs s inputs ++ [m.output (m.after s inputs) i] :=
  m.outputs_append s inputs [i]

theorem seamless_iff_split (s : State) (sessions : List (List Input)) :
    m.Seamless s sessions ↔ ∀ before i inputs later, sessions = before ++ (i :: inputs) :: later →
      m.output (m.after s before.flatten) i = m.output m.init i := by
  induction sessions generalizing s with
  | nil => simp [Seamless]
  | cons first sessions ih =>
      have hrest : (∀ before i inputs later, first :: sessions = (first :: before) ++ (i :: inputs) :: later →
          m.output (m.after s (first :: before).flatten) i = m.output m.init i) ↔
            m.Seamless (m.after s first) sessions := by
        rw [ih]
        simp [after_append]
      have hcases : m.Seamless s (first :: sessions) ↔
          (∀ i inputs, first = i :: inputs → m.output s i = m.output m.init i) ∧
            m.Seamless (m.after s first) sessions := by
        cases first with
        | nil => simp [Seamless, after]
        | cons i inputs => simp [Seamless]
      rw [hcases, ← hrest]
      constructor
      · rintro ⟨hfirst, hlater⟩ before i inputs later hsplit
        cases before with
        | nil =>
            obtain ⟨rfl, rfl⟩ := List.cons.inj hsplit
            exact hfirst i inputs rfl
        | cons first' before =>
            obtain ⟨rfl, -⟩ := List.cons.inj hsplit
            exact hlater before i inputs later hsplit
      · intro h
        refine ⟨fun i inputs hfirst => h [] i inputs sessions (by rw [hfirst, List.nil_append]), ?_⟩
        exact fun before i inputs later hsplit => h (first :: before) i inputs later hsplit

variable {m} {next : Output → State}

theorem Recalls.after_eq (h : m.Recalls next) (s : State) (inputs : List Input) :
    m.after s inputs = ((m.outputs s inputs).getLast?.map next).getD s := by
  induction inputs using List.reverseRecOn with
  | nil => rfl
  | append_singleton inputs i ih =>
      rw [after_append, outputs_concat, List.getLast?_concat, Option.map_some, Option.getD_some, ← h]
      rfl

-- Two runs over the same inputs can only differ in their first output.
theorem Recalls.outputs_eq_iff (h : m.Recalls next) (s t : State) (i : Input) (inputs : List Input) :
    m.outputs s (i :: inputs) = m.outputs t (i :: inputs) ↔ m.output s i = m.output t i := by
  rw [outputs, outputs, List.cons.injEq]
  constructor
  · exact fun hboth => hboth.1
  · intro hfirst
    exact ⟨hfirst, by rw [h s i, h t i, hfirst]⟩

theorem Recalls.outputs_sessions_iff (h : m.Recalls next) (s : State) (sessions : List (List Input)) :
    m.outputs s sessions.flatten = m.sessionOutputs sessions ↔ m.Seamless s sessions := by
  induction sessions generalizing s with
  | nil => exact iff_of_true rfl trivial
  | cons inputs sessions ih =>
      cases inputs with
      | nil => exact ih s
      | cons i inputs =>
          rw [List.flatten_cons, outputs_append, sessionOutputs, List.flatMap_cons, Seamless,
            ← h.outputs_eq_iff s m.init i inputs, ← ih]
          constructor
          · intro hall
            exact List.append_inj hall ((outputs_length ..).trans (outputs_length ..).symm)
          · rintro ⟨hfirst, hrest⟩
            rw [hfirst, hrest]
            rfl

end Mealy

end V91Core.Effect
