import V91Core.Control.StateFile

namespace V91Core.Control

open V91Core.Python V91Core.Effect

variable {cfg : Config}

-- The count that a call of `read_low_sample_count` returned.
def Call.counted : Call cfg → Option Nat
  | ⟨.readLowSampleCount, _, .ok lowSamples, _⟩ => some lowSamples
  | _ => none

namespace Cycle

variable (c : Cycle cfg)

def snapshot : Option Snapshot := c.calls.head?.bind Call.observed

-- What the cycle decides, if it comes to a decision.
def decision : Option ScaleAction := do
  let s ← c.snapshot
  let lowSamples ← c.calls[1]?.bind Call.counted
  (decide s lowSamples).1

-- The cycle has seen low use of more than one replica.
def Low : Prop :=
  ∃ s, c.snapshot = some s ∧ s.maxCpuPercent ≤ scaleDownCpu ∧ s.maxMemoryPercent ≤ scaleDownMemory ∧
    1 < s.replicas

def steps : List SysStep := c.calls.flatMap Call.steps

end Cycle

-- The state file after a cycle.
def stateAfter (file : StateFile) (c : Cycle cfg) : StateFile := runFrom StateFile.after file c.steps

-- The cycle reads what is in the state file.
def ReadsState (file : StateFile) (c : Cycle cfg) : Prop := EachStep StateFile.after StateFile.Allows file c.steps

section Analysis

theorem usesState_of_op (x : Call cfg) (op : CycleOp) (hx : x.op = op)
    (hop : op ≠ .readLowSampleCount ∧ ∀ n, op ≠ .writeState n) : x.usesState = false := by
  obtain ⟨op', steps, r, runs⟩ := x
  obtain rfl : op' = op := hx
  cases op' with
  | readLowSampleCount => exact absurd rfl hop.1
  | writeState n => exact absurd rfl (hop.2 n)
  | _ => rfl

theorem emits_stateless (op : CycleOp) (hop : op ≠ .readLowSampleCount ∧ ∀ n, op ≠ .writeState n) :
    (call op).Emits (Called cfg) fun x => x.usesState = false :=
  emits_call _ op fun x hx => usesState_of_op x op hx hop

theorem actAndVerify_stateless (s : Snapshot) (action : ScaleAction) (eventId : PyStr)
    (result : List (PyStr × Json)) :
    (actAndVerify s action eventId result).Emits (Called cfg) fun x => x.usesState = false := by
  refine (emits_stateless (.scaleWorker _) (by simp)).bind fun _ =>
    (emits_stateless .collectSnapshot (by simp)).bind fun post => ?_
  split
  · exact Prog.emits_raise _
  · exact (emits_stateless .utcNow (by simp)).bind fun _ => (emits_stateless (.appendAudit _) (by simp)).bind fun _ =>
      Prog.emits_ret _

theorem rollBack_stateless (s : Snapshot) (action : ScaleAction) (eventId : PyStr)
    (result : List (PyStr × Json)) (e : PyExc) :
    (rollBack s action eventId result e).Emits (Called cfg) fun x => x.usesState = false := by
  refine Prog.Emits.bind (Prog.Emits.attempt ?_) fun outcome =>
    (emits_stateless .utcNow (by simp)).bind fun _ => (emits_stateless (.appendAudit _) (by simp)).bind fun _ =>
      Prog.emits_ret _
  exact (emits_stateless (.scaleWorker _) (by simp)).bind fun _ =>
    (emits_stateless .collectSnapshot (by simp)).bind fun _ => Prog.emits_ret _

theorem actOn_stateless (allowActions allowScaleDown : Bool) (s : Snapshot) (action : Option ScaleAction)
    (eventId : PyStr) (event : List (PyStr × Json)) :
    (actOn allowActions allowScaleDown s action eventId event).Emits (Called cfg) fun x => x.usesState = false := by
  cases action with
  | none => exact Prog.emits_ret _
  | some action =>
      simp only [actOn]
      split
      · exact Prog.emits_ret _
      · exact (actAndVerify_stateless s action eventId event).catching fun e => rollBack_stateless _ _ _ _ e

-- How the calls of a cycle bear on the state file.
inductive StateCalls : List (Call cfg) → Prop
  | unobserved (calls : List (Call cfg)) (hobserved : calls.head?.bind Call.observed = none)
      (hcalls : ∀ x ∈ calls, x.usesState = false) : StateCalls calls
  | uncounted (o r : Call cfg) (s : Snapshot) (hobserved : o.observed = some s) (hread : r.op = .readLowSampleCount)
      (hcounted : r.counted = none) : StateCalls [o, r]
  | decided (o r w : Call cfg) (s : Snapshot) (lowSamples : Nat) (rest : List (Call cfg))
      (hobserved : o.observed = some s) (hread : Called cfg r .readLowSampleCount (.ok lowSamples))
      (hwrite : w.op = .writeState (decide s lowSamples).2.1) (hrest : ∀ x ∈ rest, x.usesState = false) :
      StateCalls (o :: r :: w :: rest)

theorem decideAndAct_stateCalls (allowActions allowScaleDown : Bool) (o : Call cfg) (s : Snapshot)
    (calls : List (Call cfg)) (out : Except PyExc (List (PyStr × Json))) (hobserved : o.observed = some s)
    (h : (decideAndAct cfg allowActions allowScaleDown s).Runs (Called cfg) calls out) :
    StateCalls (o :: calls) := by
  rcases (Prog.runs_perform_bind _ _ _ _).mp h with ⟨r, low, rest, rfl, hr, hwrite⟩ | ⟨r, e, rfl, rfl, hr⟩
  swap
  · cases hr
    exact .uncounted o _ s hobserved rfl rfl
  rcases (Prog.runs_perform_bind _ _ _ _).mp hwrite with ⟨w, _, rest, rfl, hw, hrecord⟩ | ⟨w, e, rfl, rfl, hw⟩
  swap
  · cases hw
    exact .decided o r _ s low [] hobserved hr rfl (by simp)
  have hw' : w.op = .writeState (decide s low).2.1 := by
    cases hw
    rfl
  refine .decided o r w s low rest hobserved hr hw' ?_
  refine Prog.Emits.bind (fun calls out hrun x hx => (recordDecision_records _ _ _ _ _ calls out hrun x hx).2.2)
    (fun b => ?_) _ _ hrecord
  exact actOn_stateless _ _ _ _ _ _

theorem Cycle.stateCalls (c : Cycle cfg) : StateCalls c.calls := by
  obtain ⟨allowActions, allowScaleDown, calls, outcome, runs⟩ := c
  simp only [runCycle] at runs ⊢
  split at runs
  swap
  · obtain ⟨rfl, -⟩ := (Prog.runs_raise _ _ _).mp runs
    exact .unobserved [] rfl (by simp)
  rcases (Prog.runs_bind _ _ _ _).mp runs with ⟨observed, first, rest, rfl, hfirst, hrest⟩ | ⟨e, rfl, hfirst⟩
  swap
  · obtain ⟨_, h, -⟩ := (Prog.runs_attempt _ _ _).mp hfirst
    cases h
  obtain ⟨observed', hobserved, hcollect⟩ := (Prog.runs_attempt _ _ _).mp hfirst
  obtain rfl := Except.ok.inj hobserved
  obtain ⟨o, rfl, ho⟩ := (Prog.runs_perform _ _ _).mp hcollect
  cases observed with
  | error e =>
      cases ho
      refine .unobserved _ rfl (List.forall_mem_cons.mpr ⟨rfl, ?_⟩)
      dsimp only at hrest
      split at hrest
      · exact fun x hx => (recordNoData_records _ _ _ hrest x hx).2.2
      · obtain ⟨rfl, -⟩ := (Prog.runs_raise _ _ _).mp hrest
        simp
  | ok s =>
      cases ho
      exact decideAndAct_stateCalls allowActions allowScaleDown _ s rest outcome rfl hrest

theorem steps_inert (calls : List (Call cfg)) (h : ∀ x ∈ calls, ∀ n, x.op ≠ .writeState n) :
    ∀ step ∈ calls.flatMap Call.steps, step.op.inert = true := by
  intro step hstep
  obtain ⟨x, hx, hmem⟩ := List.mem_flatMap.mp hstep
  exact body_inert x.op (h x hx) _ _ x.runs step hmem

theorem not_write_of_stateless (x : Call cfg) (h : x.usesState = false) : ∀ n, x.op ≠ .writeState n := by
  intro n hn
  rw [Call.usesState, hn] at h
  cases h

theorem counted_le (r : Call cfg) (lowSamples : Nat) (file : StateFile)
    (hread : Called cfg r .readLowSampleCount (.ok lowSamples))
    (hallows : EachStep StateFile.after StateFile.Allows file r.steps) :
    lowSamples ≤ storedSamples cfg.rt file.content := by
  cases hread with
  | mk _ steps _ runs => exact readLowSampleCount_le steps lowSamples file runs hallows

theorem write_content (w : Call cfg) (lowSamples : Nat) (file : StateFile) (hwrite : w.op = .writeState lowSamples) :
    (∀ step ∈ w.steps, step ≠ replaced) ∨ replaced ∈ w.steps ∧ ∃ now content,
      stateContent cfg.rt lowSamples now = .ok content ∧
        (runFrom StateFile.after file w.steps).content = some content := by
  obtain ⟨op, steps, r, runs⟩ := w
  obtain rfl : op = .writeState lowSamples := hwrite
  exact writeState_content lowSamples steps r file runs

theorem op_of_observed (x : Call cfg) (s : Snapshot) (h : x.observed = some s) : x.op = .collectSnapshot := by
  obtain ⟨op, steps, r, runs⟩ := x
  cases op with
  | collectSnapshot => rfl
  | _ => cases h

-- The count that a cycle reads is the one in the state file, or less.
theorem cycle_count (c : Cycle cfg) (file : StateFile) (hreads : ReadsState file c) (o r : Call cfg) (s : Snapshot)
    (lowSamples : Nat) (rest : List (Call cfg)) (hcalls : c.calls = o :: r :: rest) (hobserved : o.observed = some s)
    (hread : Called cfg r .readLowSampleCount (.ok lowSamples)) :
    lowSamples ≤ storedSamples cfg.rt file.content := by
  have ho : ∀ step ∈ [o].flatMap Call.steps, step.op.inert = true :=
    steps_inert [o] (by simp [op_of_observed o s hobserved])
  have hsteps : c.steps = [o].flatMap Call.steps ++ (r.steps ++ rest.flatMap Call.steps) := by
    simp [Cycle.steps, hcalls]
  rw [ReadsState, hsteps, eachStep_append, eachStep_append, runFrom_inert file _ ho] at hreads
  exact counted_le r lowSamples file hread hreads.2.1

-- A cycle leaves the state file alone, or puts the next count of its decision there.
theorem cycle_file (c : Cycle cfg) (file : StateFile) (hreads : ReadsState file c) :
    (replaced ∉ c.steps ∧ (stateAfter file c).content = file.content) ∨
      replaced ∈ c.steps ∧ ∃ s lowSamples now content, c.snapshot = some s ∧
        lowSamples ≤ storedSamples cfg.rt file.content ∧
        stateContent cfg.rt (decide s lowSamples).2.1 now = .ok content ∧
        (stateAfter file c).content = some content := by
  have hidle : (∀ step ∈ c.steps, step ≠ replaced) →
      replaced ∉ c.steps ∧ (stateAfter file c).content = file.content :=
    fun h => ⟨fun hmem => h replaced hmem rfl, runFrom_content file c.steps h⟩
  have hinert : (∀ x ∈ c.calls, ∀ n, x.op ≠ .writeState n) → ∀ step ∈ c.steps, step ≠ replaced :=
    fun h step hstep => ne_replaced_of_inert step (steps_inert c.calls h step hstep)
  have hstate := c.stateCalls
  have hsteps : c.steps = c.calls.flatMap Call.steps := rfl
  have hsnapshot : c.snapshot = c.calls.head?.bind Call.observed := rfl
  generalize hcalls : c.calls = calls at hstate hsteps hsnapshot hinert
  cases hstate with
  | unobserved calls hobserved hcalls =>
      exact .inl (hidle (hinert fun x hx => not_write_of_stateless x (hcalls x hx)))
  | uncounted o r s hobserved hread hcounted =>
      refine .inl (hidle (hinert ?_))
      simp [op_of_observed o s hobserved, hread]
  | decided o r w s low rest hobserved hread hwrite hrest =>
      have hread' : ∀ x ∈ [o, r], ∀ n, x.op ≠ .writeState n := by
        have hr : r.op = .readLowSampleCount := by
          cases hread
          rfl
        simp [op_of_observed o s hobserved, hr]
      have hstart := steps_inert [o, r] hread'
      have hend := steps_inert rest fun x hx => not_write_of_stateless x (hrest x hx)
      have hsplit : c.steps = [o, r].flatMap Call.steps ++ (w.steps ++ rest.flatMap Call.steps) := by
        simp [hsteps]
      have hcount := cycle_count c file hreads o r s low (w :: rest) hcalls hobserved hread
      have hfile : stateAfter file c = runFrom StateFile.after file w.steps := by
        rw [stateAfter, hsplit, runFrom_append, runFrom_append, runFrom_inert file _ hstart, runFrom_inert _ _ hend]
      rcases write_content w _ file hwrite with hnone | ⟨hreplaced, now, content, hcontent, hafter⟩
      · refine .inl (hidle fun step hstep => ?_)
        rw [hsplit, List.mem_append, List.mem_append] at hstep
        rcases hstep with hstep | hstep | hstep
        · exact ne_replaced_of_inert step (hstart step hstep)
        · exact hnone step hstep
        · exact ne_replaced_of_inert step (hend step hstep)
      · refine .inr ⟨?_, s, low, now, content, ?_, hcount, hcontent, by rw [hfile, hafter]⟩
        · rw [hsplit]
          exact List.mem_append_right _ (List.mem_append_left _ hreplaced)
        · rw [hsnapshot]
          exact hobserved

theorem decision_counts (c : Cycle cfg) (file : StateFile) (hreads : ReadsState file c) (action : ScaleAction)
    (h : c.decision = some action) :
    ∃ s lowSamples, c.snapshot = some s ∧ lowSamples ≤ storedSamples cfg.rt file.content ∧
      (decide s lowSamples).1 = some action := by
  obtain ⟨s, hs, hrest⟩ := Option.bind_eq_some_iff.mp h
  obtain ⟨low, hlow, hdecide⟩ := Option.bind_eq_some_iff.mp hrest
  refine ⟨s, low, hs, ?_, hdecide⟩
  rw [Cycle.snapshot] at hs
  have hstate := c.stateCalls
  generalize hcalls : c.calls = calls at hstate hs hlow
  cases hstate with
  | unobserved calls hobserved hcalls' =>
      rw [hobserved] at hs
      cases hs
  | uncounted o r s' hobserved hread hcounted =>
      have hnone : r.counted = some low := hlow
      rw [hcounted] at hnone
      cases hnone
  | decided o r w s' low' rest hobserved hread hwrite hrest' =>
      have hsome : r.counted = some low := hlow
      have hlow' : r.counted = some low' := by
        cases hread
        rfl
      obtain rfl := Option.some.inj (hlow'.symm.trans hsome)
      exact cycle_count c file hreads o r s' low' (w :: rest) hcalls hobserved hread

end Analysis

-- A cycle that starts with low samples on file observes the workers and, unless
-- their use is low, replaces the file.
def KeepsStreak (file : StateFile) (c : Cycle cfg) : Prop :=
  0 < storedSamples cfg.rt file.content → (∃ s, c.snapshot = some s) ∧ (¬ c.Low → replaced ∈ c.steps)

-- The low samples on file stand for as many low cycles right before.
def Backed (before : List (Cycle cfg)) (file : StateFile) : Prop :=
  ∃ earlier lows, before = earlier ++ lows ∧ (∀ c ∈ lows, c.Low) ∧ storedSamples cfg.rt file.content ≤ lows.length

theorem low_of_lowUse (c : Cycle cfg) (s : Snapshot) (hs : c.snapshot = some s) (hlow : lowUse s = true)
    (hmin : minReplicas < s.replicas) : c.Low := by
  simp only [lowUse, Bool.and_eq_true, decide_eq_true_eq] at hlow
  exact ⟨s, hs, hlow.1, hlow.2, hmin⟩

theorem storedSamples_content (rt : Runtime) (lowSamples : Nat) (now : Audit.UtcTime) (content : Bytes)
    (h : stateContent rt lowSamples now = .ok content) :
    storedSamples rt (some content) = min lowSamples lowSamplesRequired := by
  rw [storedSamples, lowSampleCount_stateContent rt lowSamples now content h]

-- One cycle more.
theorem Backed.step {before : List (Cycle cfg)} {file : StateFile} (h : Backed before file) (c : Cycle cfg)
    (hreads : ReadsState file c) (hkeeps : KeepsStreak file c) : Backed (before ++ [c]) (stateAfter file c) := by
  obtain ⟨earlier, lows, rfl, hlows, hstored⟩ := h
  have hlonger : c.Low → ∀ n, n ≤ storedSamples cfg.rt file.content + 1 →
      ∃ earlier' lows', earlier ++ lows ++ [c] = earlier' ++ lows' ∧ (∀ c ∈ lows', c.Low) ∧ n ≤ lows'.length := by
    intro hlow n hn
    refine ⟨earlier, lows ++ [c], by rw [List.append_assoc], ?_, ?_⟩
    · rw [List.forall_mem_append]
      exact ⟨hlows, by simpa using hlow⟩
    · rw [List.length_append, List.length_singleton]
      omega
  rcases cycle_file c file hreads with ⟨hidle, hcontent⟩ | ⟨-, s, low, now, content, hs, hlow, hcontent, hafter⟩
  · rw [Backed, hcontent]
    by_cases hzero : storedSamples cfg.rt file.content = 0
    · exact ⟨earlier ++ lows ++ [c], [], by simp, by simp, by omega⟩
    · have hislow : c.Low := by
        by_contra hnot
        exact hidle ((hkeeps (by omega)).2 hnot)
      exact hlonger hislow _ (by omega)
  · rw [Backed, hafter, storedSamples_content _ _ _ _ hcontent]
    have hdecision := decide_decision s low
    generalize (decide s low).1 = action, (decide s low).2.1 = next at hdecision ⊢
    cases hdecision with
    | wait huse hmin hcount =>
        exact hlonger (low_of_lowUse c s hs huse hmin) _ (by omega)
    | _ => exact ⟨earlier ++ lows ++ [c], [], by simp, by simp, by simp⟩

theorem last_two {α : Type} (l : List α) (h : 2 ≤ l.length) : ∃ init a b, l = init ++ [a, b] := by
  rcases List.eq_nil_or_concat l with rfl | ⟨front, b, rfl⟩
  · simp at h
  rcases List.eq_nil_or_concat front with rfl | ⟨init, a, rfl⟩
  · simp at h
  · exact ⟨init, a, b, by simp⟩

theorem Backed.decides {before : List (Cycle cfg)} {file : StateFile} (h : Backed before file) (c : Cycle cfg)
    (hreads : ReadsState file c) (hdecision : c.decision = some .scaleDownWorkers) :
    c.Low ∧ ∃ earlier c₁ c₂, before = earlier ++ [c₁, c₂] ∧ c₁.Low ∧ c₂.Low := by
  obtain ⟨s, low, hs, hcount, hdecide⟩ := decision_counts c file hreads _ hdecision
  have hgrounds := decide_decision s low
  rw [hdecide] at hgrounds
  generalize (decide s low).2.1 = next at hgrounds
  cases hgrounds with
  | down huse hmin hmax hrequired =>
      refine ⟨low_of_lowUse c s hs huse hmin, ?_⟩
      obtain ⟨earlier, lows, rfl, hlows, hstored⟩ := h
      have htwo : 2 ≤ lows.length := by
        simp only [lowSamplesRequired] at hrequired
        omega
      obtain ⟨init, c₁, c₂, rfl⟩ := last_two lows htwo
      exact ⟨earlier ++ init, c₁, c₂, by simp, hlows c₁ (by simp), hlows c₂ (by simp)⟩

theorem backed_run (run before : List (Cycle cfg)) (file : StateFile) (h : Backed before file)
    (hreads : EachStep stateAfter ReadsState file run) (hkeeps : EachStep stateAfter KeepsStreak file run)
    (first later : List (Cycle cfg)) (c : Cycle cfg) (hrun : run = first ++ c :: later)
    (hdecision : c.decision = some .scaleDownWorkers) :
    c.Low ∧ ∃ earlier c₁ c₂, before ++ first = earlier ++ [c₁, c₂] ∧ c₁.Low ∧ c₂.Low := by
  induction run generalizing before file first with
  | nil => simp at hrun
  | cons x run ih =>
      cases first with
      | nil =>
          obtain ⟨rfl, -⟩ := List.cons_eq_cons.mp hrun
          rw [List.append_nil]
          exact h.decides x hreads.1 hdecision
      | cons y first =>
          obtain ⟨rfl, hrest⟩ := List.cons_eq_cons.mp hrun
          have hnext := ih (before ++ [x]) _ (h.step x hreads.1 hkeeps.1) hreads.2 hkeeps.2 first hrest
          rwa [List.append_assoc] at hnext

-- A run starts without a state file.
def noState : StateFile := ⟨none, []⟩

theorem scale_down_after_three_low (run : List (Cycle cfg)) (hreads : EachStep stateAfter ReadsState noState run)
    (hkeeps : EachStep stateAfter KeepsStreak noState run) (before after : List (Cycle cfg)) (c : Cycle cfg)
    (hrun : run = before ++ c :: after) (hdecision : c.decision = some .scaleDownWorkers) :
    c.Low ∧ ∃ earlier c₁ c₂, before = earlier ++ [c₁, c₂] ∧ c₁.Low ∧ c₂.Low := by
  have hstart : Backed ([] : List (Cycle cfg)) noState := ⟨[], [], rfl, by simp, Nat.le_refl 0⟩
  have hall := backed_run run [] noState hstart hreads hkeeps before after c hrun hdecision
  rwa [List.nil_append] at hall

section Machine

theorem reply_state (m : Machine) (op : SysOp) :
    m.state.Allows ⟨op, (m.reply op).1⟩ ∧ m.state.after ⟨op, (m.reply op).1⟩ = (m.reply op).2.state := by
  cases op with
  | audit op => cases op <;> exact ⟨trivial, rfl⟩
  | readState =>
      cases hcontent : m.state.content with
      | none =>
          simp only [Machine.reply, hcontent]
          exact ⟨trivial, rfl⟩
      | some content =>
          simp only [Machine.reply, hcontent]
          exact ⟨hcontent, rfl⟩
  | _ => exact ⟨trivial, rfl⟩

theorem play_state {α : Type} (p : Action α) (m : Machine) :
    EachStep StateFile.after StateFile.Allows m.state (p.play Machine.answer m).1 ∧
      runFrom StateFile.after m.state (p.play Machine.answer m).1 = (p.play Machine.answer m).2.2.state := by
  induction p generalizing m with
  | ret a => exact ⟨trivial, rfl⟩
  | raise e => exact ⟨trivial, rfl⟩
  | call op k ih =>
      obtain ⟨hallows, hafter⟩ := reply_state m op
      obtain ⟨hrest, hend⟩ := ih (m.reply op).1 (m.reply op).2
      rw [← hafter] at hrest hend
      exact ⟨⟨hallows, hrest⟩, hend⟩

theorem cycle_play_state {α : Type} (p : CycleAction α) (m : Machine) :
    EachStep StateFile.after StateFile.Allows m.state ((p.play (Machine.callAnswer cfg) m).1.flatMap Call.steps) ∧
      runFrom StateFile.after m.state ((p.play (Machine.callAnswer cfg) m).1.flatMap Call.steps) =
        (p.play (Machine.callAnswer cfg) m).2.2.state := by
  induction p generalizing m with
  | ret a => exact ⟨trivial, rfl⟩
  | raise e => exact ⟨trivial, rfl⟩
  | call op k ih =>
      obtain ⟨hbody, hafter⟩ := play_state (body cfg op) m
      obtain ⟨hrest, hend⟩ := ih (m.callAnswer cfg op).2.1 (m.callAnswer cfg op).2.2
      have hsteps : ((Prog.call op k).play (Machine.callAnswer cfg) m).1.flatMap Call.steps =
          ((body cfg op).play Machine.answer m).1 ++
            ((k (m.callAnswer cfg op).2.1).play (Machine.callAnswer cfg)
              (m.callAnswer cfg op).2.2).1.flatMap Call.steps := rfl
      rw [hsteps, eachStep_append, runFrom_append, hafter]
      exact ⟨⟨hbody, hrest⟩, hend⟩

-- The cycles of a machine read its state file.
theorem machine_reads (allowActions allowScaleDown : Bool) (n : Nat) (m : Machine) :
    EachStep stateAfter ReadsState m.state (m.run cfg allowActions allowScaleDown n) := by
  induction n generalizing m with
  | zero => trivial
  | succ n ih =>
      obtain ⟨hreads, hafter⟩ := cycle_play_state (runCycle cfg allowActions allowScaleDown) m
      refine ⟨hreads, ?_⟩
      have hnext : stateAfter m.state (m.cycle cfg allowActions allowScaleDown) =
          (m.next cfg allowActions allowScaleDown).state := hafter
      rw [hnext]
      exact ih _

end Machine

section Sample

-- Three workers that are idle at every reading.
def idleMachine : Machine :=
  ⟨sampleTime, [.ok (workers idleStats 3), .ok (workers idleStats 3), .ok (workers idleStats 3)], [], noState⟩

-- The third reading fails.
def silentMachine : Machine :=
  ⟨sampleTime, [.ok (workers idleStats 3), .ok (workers idleStats 3),
    .error (.controlError (py "Worker state is not fully measurable/healthy; no automatic action allowed.")),
    .ok (workers idleStats 3)], [], noState⟩

def SysStep.isReplaced (step : SysStep) : Bool :=
  match step with
  | ⟨.replaceState, .ok _⟩ => true
  | _ => false

theorem keeps_of_replaced (c : Cycle cfg) (file : StateFile)
    (h : (c.snapshot.isSome && c.steps.any SysStep.isReplaced) = true) : KeepsStreak file c := by
  obtain ⟨hsnapshot, hreplaced⟩ := Bool.and_eq_true_iff.mp h
  refine fun _ => ⟨Option.isSome_iff_exists.mp hsnapshot, fun _ => ?_⟩
  obtain ⟨⟨op, r⟩, hmem, hstep⟩ := List.any_eq_true.mp hreplaced
  cases op with
  | replaceState =>
      cases r with
      | ok _ => exact hmem
      | error e => cases hstep
  | _ => cases hstep

def idleRun : List (Cycle sampleConfig) := idleMachine.run sampleConfig false false 3

-- Every cycle has a reading and writes its count, and the third one decides.
theorem idleRun_cycles : idleRun.map (fun c => (c.snapshot.isSome && c.steps.any SysStep.isReplaced, c.decision)) =
    [(true, none), (true, none), (true, some .scaleDownWorkers)] := by decide +kernel

theorem idleRun_keeps : EachStep stateAfter KeepsStreak noState idleRun := by
  have hkeeps : ∀ c ∈ idleRun, ∀ file, KeepsStreak file c := by
    intro c hc file
    have hmem := List.mem_map_of_mem
      (f := fun c => (c.snapshot.isSome && c.steps.any SysStep.isReplaced, c.decision)) hc
    rw [idleRun_cycles] at hmem
    have htrue : ∀ pair ∈ [(true, none), (true, none), (true, some ScaleAction.scaleDownWorkers)], pair.1 = true := by
      decide
    exact keeps_of_replaced c file (htrue _ hmem)
  rw [eachStep_iff_split]
  exact fun before c hinitial => hkeeps c (hinitial.subset (by simp)) _

theorem idleRun_decisions : idleRun.map Cycle.decision = [none, none, some .scaleDownWorkers] := by
  have hsecond := congrArg (List.map Prod.snd) idleRun_cycles
  rwa [List.map_map] at hsecond

theorem idleRun_scales_down :
    ∃ before c, idleRun = before ++ [c] ∧ c.decision = some .scaleDownWorkers ∧ c.Low ∧
      ∃ earlier c₁ c₂, before = earlier ++ [c₁, c₂] ∧ c₁.Low ∧ c₂.Low := by
  obtain ⟨before, last, hrun, -, hlast⟩ :=
    List.map_eq_append_iff.mp (idleRun_decisions.trans (show _ = [none, none] ++ [some .scaleDownWorkers] from rfl))
  obtain ⟨c, rest, rfl, hdecision, hrest⟩ := List.map_eq_cons_iff.mp hlast
  obtain rfl := List.map_eq_nil_iff.mp hrest
  exact ⟨before, c, hrun, hdecision, scale_down_after_three_low idleRun (machine_reads false false 3 idleMachine)
    idleRun_keeps before [] c hrun hdecision⟩

def silentRun : List (Cycle sampleConfig) := silentMachine.run sampleConfig false false 4

theorem silentRun_decisions : silentRun.map (fun c => (c.snapshot.isSome, c.decision)) =
    [(true, none), (true, none)] ++ [(false, none), (true, some .scaleDownWorkers)] := by
  decide +kernel

-- A cycle without data does not break the streak.
theorem scale_down_across_silence : ∃ (cfg : Config) (run : List (Cycle cfg)),
    EachStep stateAfter ReadsState noState run ∧ ∃ before c after, run = before ++ c :: after ∧
      c.decision = some .scaleDownWorkers ∧
      ¬ (c.Low ∧ ∃ earlier c₁ c₂, before = earlier ++ [c₁, c₂] ∧ c₁.Low ∧ c₂.Low) := by
  refine ⟨sampleConfig, silentRun, machine_reads false false 4 silentMachine, ?_⟩
  obtain ⟨first, last, hrun, -, hlast⟩ := List.map_eq_append_iff.mp silentRun_decisions
  obtain ⟨silent, rest, rfl, hsilent, hrest⟩ := List.map_eq_cons_iff.mp hlast
  obtain ⟨c, rest, rfl, hc, -⟩ := List.map_eq_cons_iff.mp hrest
  refine ⟨first ++ [silent], c, rest, by rw [hrun, List.append_assoc]; rfl, congrArg Prod.snd hc, ?_⟩
  rintro ⟨-, earlier, c₁, c₂, hbefore, -, ⟨s, hs, -⟩⟩
  have hlast' : silent = c₂ := by
    have hgetLast := congrArg List.getLast? hbefore
    simpa using hgetLast
  have hnone : silent.snapshot.isSome = false := congrArg Prod.fst hsilent
  rw [hlast', hs] at hnone
  cases hnone

end Sample

end V91Core.Control
