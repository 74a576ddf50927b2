import V91Core.Worker.Process

namespace V91Core.Worker

open V91Core.Python V91Core.Effect V91Core.Audit

abbrev WorkerStep := Answered WorkerOp WorkerOp.Res PyExc

inductive WorkerAns : WorkerStep → (op : WorkerOp) → Except PyExc op.Res → Prop
  | answered (op : WorkerOp) (r : Except PyExc op.Res) (htotal : op.total = true → ∃ b, r = .ok b) :
      WorkerAns ⟨op, r⟩ op r

abbrev TaskCall (cfg : Config) := Call WorkerAns (body cfg)

-- A finished call of `process_one`.
structure Task (cfg : Config) where
  calls : List (TaskCall cfg)
  outcome : Except PyExc Bool
  runs : (processOne cfg).Runs (Called WorkerAns (body cfg)) calls outcome

variable {cfg : Config}

def phaseIs (phase : String) (event : Fields) : Prop := Json.lookup (py "phase") event = some (.str (py phase))

def statusIs (status : String) (payload : Fields) : Prop :=
  Json.lookup (py "status") payload = some (.str (py status))

-- The operation has failed. The removal of a lock file that is gone does not count.
def Fault (step : WorkerStep) : Prop :=
  ∃ e, step.answer = .error e ∧ ¬ (step.op = .audit .unlinkLock ∧ e = .fileNotFound)

-- The result has been written and has not been removed again.
def Leaves (taskId : PyStr) (steps : List WorkerStep) : Prop :=
  (∃ content, ⟨.writeResult taskId content, .ok ()⟩ ∈ steps) ∧ ⟨.unlinkResult taskId, .ok ()⟩ ∉ steps

namespace TaskOp

-- The arguments of `atomic_result`.
def writes : TaskOp → Option (PyStr × Fields)
  | .atomicResult taskId payload => some (taskId, payload)
  | _ => none

-- The event that `append_audit` gets.
def event : TaskOp → Option Fields
  | .appendAudit event => some event
  | _ => none

-- Where a file is to be moved.
def target : TaskOp → Option Place
  | .sys (.rename _ target) => some target
  | _ => none

end TaskOp

namespace TaskCall

def Wrote (status : String) (c : TaskCall cfg) : Prop :=
  ∃ taskId payload, c.op.writes = some (taskId, payload) ∧ statusIs status payload ∧ Leaves taskId c.steps

-- The event is appended when `append_audit` has returned.
def Appended (phase : String) (c : TaskCall cfg) : Prop :=
  (∃ event, c.op.event = some event ∧ phaseIs phase event) ∧ ∃ b, c.answer = .ok b

def Moved (dir : Dir) (c : TaskCall cfg) : Prop :=
  (∃ name, c.op.target = some ⟨dir, name⟩) ∧ ∃ b, c.answer = .ok b

-- The rename has been tried.
def NotMoved (dir : Dir) (c : TaskCall cfg) : Prop :=
  (∃ name, c.op.target = some ⟨dir, name⟩) ∧ ∃ e, c.answer = .error e

-- The event cannot be serialised, or an operation of the call fails. In particular
-- another process may hold the audit lock.
def Hindered (c : TaskCall cfg) : Prop :=
  (∃ event, c.op.event = some event ∧ ∀ line, eventLine cfg.rt (.obj event) ≠ .ok line) ∨
    ∃ step ∈ c.steps, Fault step

end TaskCall

namespace Task

-- The calls from the first call of `atomic_result` on.
def delivering (t : Task cfg) : List (TaskCall cfg) := t.calls.dropWhile fun c => c.op.writes.isNone

-- What the queue, the result file and the audit log say about the task is the same.
def Agrees (t : Task cfg) : Prop :=
  ((∃ c ∈ t.calls, TaskCall.Moved .failed c) → ¬ ∃ c ∈ t.calls, TaskCall.Wrote "COMPLETED" c) ∧
    ((∃ c ∈ t.calls, TaskCall.Moved .done c) → (∃ c ∈ t.calls, TaskCall.Wrote "COMPLETED" c) ∧
      (∃ c ∈ t.calls, TaskCall.Appended "TASK_COMPLETED" c) ∧
        ¬ ∃ c ∈ t.calls, TaskCall.Appended "TASK_FAILED" c)

-- From the COMPLETED result on nothing is hindered, or else the handler's rename into `failed`
-- is answered with an error.
def DeliveryUnhindered (t : Task cfg) : Prop :=
  (∃ c ∈ t.calls, TaskCall.Wrote "COMPLETED" c) →
    (∀ c ∈ t.delivering, ¬ TaskCall.Hindered c) ∨ ∃ c ∈ t.calls, TaskCall.NotMoved .failed c

end Task

section Operations

theorem runs_op (op : WorkerOp) (steps : List WorkerStep) (r : Except PyExc op.Res)
    (h : (perform op).Runs WorkerAns steps r) : steps = [⟨op, r⟩] := by
  obtain ⟨step, rfl, hans⟩ := (Prog.runs_perform _ _ _).mp h
  cases hans
  rfl

theorem fault_of_error (op : WorkerOp) (e : PyExc) (hop : op ≠ .audit .unlinkLock) :
    Fault ⟨op, .error e⟩ := ⟨e, rfl, fun h => hop h.1⟩

theorem not_fault_of_ok (op : WorkerOp) (b : op.Res) : ¬ Fault ⟨op, .ok b⟩ := by
  rintro ⟨e, he, -⟩
  cases he

theorem returnsUnless_op (op : WorkerOp) (hop : op ≠ .audit .unlinkLock) :
    (perform op).ReturnsUnless WorkerAns Fault := by
  refine Prog.returnsUnless_perform op fun step r hans => ?_
  cases hans
  constructor
  · rintro ⟨e, he, -⟩
    exact ⟨e, he⟩
  · rintro ⟨e, rfl⟩
    exact fault_of_error op e hop

theorem fillResult_returnsUnless (taskId : PyStr) (content : Bytes) :
    (fillResult taskId content).ReturnsUnless WorkerAns Fault :=
  (returnsUnless_op (.openResult taskId) (by simp)).bind fun _ =>
    ((returnsUnless_op (.writeResult taskId content) (by simp)).bind fun _ =>
      returnsUnless_op (.syncResult taskId) (by simp)).finishing (returnsUnless_op (.closeResult taskId) (by simp))

theorem fillResult_ok (taskId : PyStr) (content : Bytes) (steps : List WorkerStep)
    (h : (fillResult taskId content).Runs WorkerAns steps (.ok ())) :
    steps = [⟨.openResult taskId, .ok ()⟩, ⟨.writeResult taskId content, .ok ()⟩, ⟨.syncResult taskId, .ok ()⟩,
      ⟨.closeResult taskId, .ok ()⟩] := by
  obtain ⟨_, _, _, rfl, hopen, hrest⟩ := (Prog.runs_bind_ok _ _ _ _).mp h
  obtain ⟨outcome, _, _, rfl, hbody, ⟨hclose, rfl⟩ | ⟨e, he, -⟩⟩ := (Prog.runs_finishing _ _ _ _).mp hrest
  · obtain ⟨_, _, _, rfl, hwrite, hsync⟩ := (Prog.runs_bind_ok _ _ _ _).mp hbody
    rw [runs_op _ _ _ hopen, runs_op _ _ _ hclose, runs_op _ _ _ hwrite, runs_op _ _ _ hsync]
    rfl
  · cases he

theorem createResult_runs (taskId : PyStr) (steps : List WorkerStep) (r : Except PyExc Unit)
    (h : (createResult taskId).Runs WorkerAns steps r) :
    (r = .ok () ∧ steps = [⟨.createResult taskId, .ok ()⟩]) ∨ (∃ e, r = .error e) ∧ ∃ step ∈ steps, Fault step := by
  rcases (Prog.runs_catching _ _ _ _).mp h with ⟨_, rfl, hcreate⟩ | ⟨e, first, _, rfl, hcreate, hraise⟩
  · exact .inl ⟨rfl, runs_op _ _ _ hcreate⟩
  · refine .inr ⟨?_, ⟨.createResult taskId, .error e⟩, ?_, fault_of_error _ e (by simp)⟩
    · split at hraise
      · exact ⟨_, ((Prog.runs_raise _ _ _).mp hraise).2⟩
      · exact ⟨_, ((Prog.runs_raise _ _ _).mp hraise).2⟩
    · rw [runs_op _ _ _ hcreate]
      exact List.mem_cons_self

theorem discardResult_raises (taskId : PyStr) (e : PyExc) (steps : List WorkerStep) (r : Except PyExc Unit)
    (h : (discardResult taskId e).Runs WorkerAns steps r) : ∃ e', r = .error e' := by
  rcases (Prog.runs_bind _ _ _ _).mp h with ⟨_, _, _, -, -, hraise⟩ | ⟨e', rfl, -⟩
  · exact ⟨e, ((Prog.runs_raise _ _ _).mp hraise).2⟩
  · exact ⟨e', rfl⟩

-- `atomic_result` returns when it has written, synced and closed the file. It
-- raises before its first operation or because of a fault.
theorem atomicResult_runs (rt : Runtime) (taskId : PyStr) (payload : Fields) (steps : List WorkerStep)
    (r : Except PyExc Unit) (h : (atomicResult rt taskId payload).Runs WorkerAns steps r) :
    (r = .ok () ∧ ∃ content, steps = [⟨.createResult taskId, .ok ()⟩, ⟨.openResult taskId, .ok ()⟩,
      ⟨.writeResult taskId content, .ok ()⟩, ⟨.syncResult taskId, .ok ()⟩, ⟨.closeResult taskId, .ok ()⟩]) ∨
      (∃ e, r = .error e) ∧ (steps = [] ∨ ∃ step ∈ steps, Fault step) := by
  unfold atomicResult at h
  by_cases hid : isTaskId taskId = true
  · rw [if_pos hid] at h
    rcases (Prog.runs_bind _ _ _ _).mp h with ⟨content, _, _, rfl, hencoded, hrest⟩ | ⟨e, rfl, hencoded⟩
    · obtain ⟨rfl, -⟩ := (Prog.runs_ofExcept _ _ _).mp hencoded
      rcases (Prog.runs_bind _ _ _ _).mp hrest with ⟨_, created, filled, rfl, hcreate, hfilled⟩ | ⟨e, rfl, hcreate⟩
      · rcases createResult_runs taskId _ _ hcreate with ⟨-, rfl⟩ | ⟨⟨e, he⟩, -⟩
        · rcases (Prog.runs_catching _ _ _ _).mp hfilled with ⟨_, rfl, hfill⟩ | ⟨e, body, _, rfl, hfill, hdiscard⟩
          · rw [fillResult_ok taskId content _ hfill]
            exact .inl ⟨rfl, content, rfl⟩
          · have hfaults := (fillResult_returnsUnless taskId content _ _ hfill).not.mp (by simp)
            obtain ⟨step, hstep, hfault⟩ : ∃ step ∈ body, Fault step := by simpa using hfaults
            exact .inr ⟨discardResult_raises taskId e _ _ hdiscard, .inr ⟨step, by simp [hstep], hfault⟩⟩
        · cases he
      · rcases createResult_runs taskId _ _ hcreate with ⟨he, -⟩ | ⟨-, step, hstep, hfault⟩
        · cases he
        · exact .inr ⟨⟨e, rfl⟩, .inr ⟨step, hstep, hfault⟩⟩
    · obtain ⟨rfl, -⟩ := (Prog.runs_ofExcept _ _ _).mp hencoded
      exact .inr ⟨⟨e, rfl⟩, .inl rfl⟩
  · rw [if_neg hid] at h
    obtain ⟨rfl, rfl⟩ := (Prog.runs_raise _ _ _).mp h
    exact .inr ⟨⟨_, rfl⟩, .inl rfl⟩

end Operations

section Calls

theorem runs_call (op : TaskOp) (calls : List (TaskCall cfg)) (r : Except PyExc op.Res)
    (h : (call op).Runs (Called WorkerAns (body cfg)) calls r) :
    ∃ steps runs, calls = [⟨op, steps, r, runs⟩] := by
  obtain ⟨c, rfl, hcalled⟩ := (Prog.runs_perform _ _ _).mp h
  cases hcalled with
  | mk _ steps _ runs => exact ⟨steps, runs, rfl⟩

variable (steps : List WorkerStep)

theorem appendAudit_hindered_iff (event : Fields) (r : Except PyExc Unit)
    (runs : (body cfg (.appendAudit event)).Runs WorkerAns steps r) :
    TaskCall.Hindered ⟨.appendAudit event, steps, r, runs⟩ ↔ ∃ e, r = .error e := by
  have hrun := (Prog.runs_lift _ _ _ _ _).mp runs
  have hfault : ∀ (step : WorkerStep) (op : AuditOp) (r : Except PyExc op.Res),
      (∃ r', r = r'.map (fun b => b) ∧ WorkerAns step (.audit op) r') → (Fault step ↔ Fails op r) := by
    rintro step op _ ⟨r', rfl, hans⟩
    cases hans
    cases r' with
    | ok b => simp [Fault, Fails, Except.map]
    | error e => simp [Fault, Fails, Except.map]
  cases r with
  | ok u =>
      obtain ⟨line, hline, -⟩ := line_of_appended _ _ _ _ _ hrun
      have hquiet := (appendAudit_returnsUnless hfault _ _ _ _ line hline steps _ hrun).mp ⟨u, rfl⟩
      refine iff_of_false ?_ (by simp)
      rintro (⟨event', hevent, hnone⟩ | ⟨step, hstep, hstepFault⟩)
      · obtain rfl : event = event' := Option.some.inj hevent
        exact hnone line hline
      · exact hquiet step hstep hstepFault
  | error e =>
      refine iff_of_true ?_ ⟨e, rfl⟩
      by_cases hline : ∃ line, eventLine cfg.rt (.obj event) = .ok line
      · obtain ⟨line, hline⟩ := hline
        have hfaults := (appendAudit_returnsUnless hfault _ _ _ _ line hline steps _ hrun).not.mp (by simp)
        exact .inr (by simpa using hfaults)
      · exact .inl ⟨event, rfl, fun line h => hline ⟨line, h⟩⟩

theorem sys_hindered_iff (op : WorkerOp) (hop : op ≠ .audit .unlinkLock) (r : Except PyExc op.Res)
    (runs : (body cfg (.sys op)).Runs WorkerAns steps r) :
    TaskCall.Hindered ⟨.sys op, steps, r, runs⟩ ↔ ∃ e, r = .error e := by
  have hsteps := runs_op op steps r runs
  constructor
  · rintro (⟨event, hevent, -⟩ | ⟨step, hstep, hfault⟩)
    · cases hevent
    · cases r with
      | ok b =>
          have hmem : step ∈ steps := hstep
          rw [hsteps, List.mem_singleton] at hmem
          exact absurd (hmem ▸ hfault) (not_fault_of_ok op b)
      | error e => exact ⟨e, rfl⟩
  · rintro ⟨e, rfl⟩
    exact .inr ⟨_, hsteps ▸ List.mem_cons_self, fault_of_error op e hop⟩

theorem atomicResult_written (taskId : PyStr) (payload : Fields)
    (runs : (body cfg (.atomicResult taskId payload)).Runs WorkerAns steps (.ok ())) :
    Leaves taskId steps ∧ ¬ TaskCall.Hindered ⟨.atomicResult taskId payload, steps, .ok (), runs⟩ := by
  rcases atomicResult_runs _ _ _ _ _ runs with ⟨-, content, hsteps⟩ | ⟨⟨e, he⟩, -⟩
  · refine ⟨⟨⟨content, by simp [hsteps]⟩, by simp [hsteps]⟩, ?_⟩
    rintro (⟨event, hevent, -⟩ | ⟨step, hstep, hfault⟩)
    · cases hevent
    · have hok : ∀ step ∈ steps, ¬ Fault step := by
        rw [hsteps]
        simp [Fault]
      exact hok step hstep hfault
  · cases he

theorem atomicResult_hindered (taskId : PyStr) (payload : Fields) (e : PyExc)
    (runs : (body cfg (.atomicResult taskId payload)).Runs WorkerAns steps (.error e))
    (hleaves : Leaves taskId steps) :
    TaskCall.Hindered ⟨.atomicResult taskId payload, steps, .error e, runs⟩ := by
  rcases atomicResult_runs _ _ _ _ _ runs with ⟨he, -⟩ | ⟨-, hnone | hfault⟩
  · cases he
  · obtain ⟨content, hwrite⟩ := hleaves.1
    rw [hnone] at hwrite
    cases hwrite
  · exact .inr hfault

end Calls

section Course

-- What the calls before the result do.
structure Preparing (op : TaskOp) : Prop where
  writes : op.writes = none
  target : op.target = none
  event : ∀ event, op.event = some event → ¬ phaseIs "TASK_FAILED" event

-- What the rest of the `try` block does.
structure Delivering (op : TaskOp) : Prop where
  target : ∀ name, op.target ≠ some ⟨.failed, name⟩
  event : ∀ event, op.event = some event → ¬ phaseIs "TASK_FAILED" event

-- What the handler does.
structure Failing (op : TaskOp) : Prop where
  writes : ∀ taskId payload, op.writes = some (taskId, payload) → ¬ statusIs "COMPLETED" payload
  target : ∀ name, op.target ≠ some ⟨.done, name⟩

theorem emits_op (Q : TaskOp → Prop) (op : TaskOp) (hop : Q op) :
    (call op).Emits (Called WorkerAns (body cfg)) fun c => Q c.op := by
  refine Prog.emits_perform op fun c r hcalled => ?_
  cases hcalled
  exact hop

theorem not_phase (phase : PyStr) (now : UtcTime) (rest : Fields) (h : phase ≠ py "TASK_FAILED") :
    ¬ phaseIs "TASK_FAILED" (label "timestamp_utc" now.val :: label "phase" phase :: rest) := by
  intro hphase
  have : Json.lookup (py "phase") (label "timestamp_utc" now.val :: label "phase" phase :: rest) =
      some (.str phase) := rfl
  rw [phaseIs, this] at hphase
  exact h (Json.str.inj (Option.some.inj hphase))

theorem preparing_append (event : Fields) (h : ¬ phaseIs "TASK_FAILED" event) : Preparing (.appendAudit event) :=
  ⟨rfl, rfl, fun event' hevent => by
    obtain rfl : event = event' := Option.some.inj hevent
    exact h⟩

theorem prepare_preparing (claimed : PyStr) :
    (prepare cfg claimed).Emits (Called WorkerAns (body cfg)) fun c => Preparing c.op := by
  have hquiet : ∀ op : TaskOp, op.writes = none → op.target = none → op.event = none →
      (call op).Emits (Called WorkerAns (body cfg)) fun c => Preparing c.op := by
    intro op hwrites htarget hevent
    exact emits_op Preparing op ⟨hwrites, htarget, fun event h => by simp [hevent] at h⟩
  have happend : ∀ event, ¬ phaseIs "TASK_FAILED" event →
      (appendAudit event).Emits (Called WorkerAns (body cfg)) fun c => Preparing c.op :=
    fun event h => emits_op Preparing _ (preparing_append event h)
  refine (hquiet _ rfl rfl rfl).bind fun now => ?_
  refine (happend _ (not_phase _ now _ (by decide))).bind fun _ => ?_
  refine (hquiet (.sys (.statClaimed claimed)) rfl rfl rfl).bind fun size => ?_
  split
  · exact Prog.emits_raise _
  refine (hquiet (.sys (.readClaimed claimed)) rfl rfl rfl).bind fun content => ?_
  refine (Prog.emits_ofExcept _).bind fun task => (Prog.emits_ofExcept _).bind fun envelope => ?_
  refine (hquiet _ rfl rfl rfl).bind fun now => ?_
  exact (happend _ (not_phase _ now _ (by decide))).bind fun _ => hquiet _ rfl rfl rfl

theorem deliver_delivering (claimed : PyStr) (result : TaskResult) :
    (deliver claimed result).Emits (Called WorkerAns (body cfg)) fun c => Delivering c.op := by
  have hquiet : ∀ op : TaskOp, op.target = none → op.event = none →
      (call op).Emits (Called WorkerAns (body cfg)) fun c => Delivering c.op := by
    intro op htarget hevent
    exact emits_op Delivering op ⟨fun name => by simp [htarget], fun event h => by simp [hevent] at h⟩
  refine (hquiet _ rfl rfl).bind fun _ => (hquiet _ rfl rfl).bind fun now => ?_
  refine (emits_op Delivering _ ⟨fun name => by simp [TaskOp.target], ?_⟩).bind fun _ => ?_
  · exact (preparing_append _ (not_phase _ now _ (by decide))).event
  · refine emits_op Delivering _ ⟨fun name h => ?_, fun event h => by cases h⟩
    cases h

theorem recordFailure_failing (claimed : PyStr) (e : PyExc) :
    (recordFailure claimed e).Emits (Called WorkerAns (body cfg)) fun c => Failing c.op := by
  have hquiet : ∀ op : TaskOp, op.writes = none → op.target = none →
      (call op).Emits (Called WorkerAns (body cfg)) fun c => Failing c.op := by
    intro op hwrites htarget
    exact emits_op Failing op ⟨fun taskId payload h => by simp [hwrites] at h, fun name => by simp [htarget]⟩
  refine (hquiet _ rfl rfl).bind fun now => ?_
  refine (Prog.Emits.catching (emits_op Failing _ ⟨?_, fun name => by simp [TaskOp.target]⟩)
    fun _ => Prog.emits_ret _).bind fun _ => ?_
  · intro taskId payload h hstatus
    obtain ⟨-, rfl⟩ := Prod.mk.inj (Option.some.inj h)
    have hlookup : Json.lookup (py "status") (failureFields (taskIdOf claimed) now e) =
        some (.str (py "FAILED")) := rfl
    rw [statusIs, hlookup] at hstatus
    exact absurd hstatus (by decide)
  · refine Prog.Emits.finishing ((hquiet _ rfl rfl).bind fun now => hquiet _ rfl rfl) ?_
    refine Prog.Emits.catching (emits_op Failing _ ⟨fun taskId payload h => ?_, fun name h => ?_⟩) fun e => ?_
    · cases h
    · cases h
    · split
      · exact Prog.emits_ret _
      · exact Prog.emits_raise _

theorem clock_returns (steps : List WorkerStep) (r : Except PyExc UtcTime)
    (runs : (body cfg (.sys .utcNow)).Runs WorkerAns steps r) : ∃ now, r = .ok now := by
  obtain ⟨step, -, hans⟩ := (Prog.runs_perform _ _ _).mp runs
  cases hans with
  | answered _ _ htotal => exact htotal rfl

theorem moveToFailed_move (claimed : PyStr) (calls : List (TaskCall cfg)) (r : Except PyExc Unit)
    (h : (moveToFailed claimed).Runs (Called WorkerAns (body cfg)) calls r) :
    ∃ move, calls = [move] ∧ move.op.target = some ⟨.failed, claimed⟩ := by
  rcases (Prog.runs_catching _ _ _ _).mp h with ⟨_, -, hmove⟩ | ⟨e, first, rest, rfl, hmove, hcaught⟩
  · obtain ⟨steps, runs, rfl⟩ := runs_call _ _ _ hmove
    exact ⟨_, rfl, rfl⟩
  · obtain ⟨steps, runs, rfl⟩ := runs_call _ _ _ hmove
    have hrest : rest = [] := by
      split at hcaught
      · exact ((Prog.runs_ret _ _ _).mp hcaught).1
      · exact ((Prog.runs_raise _ _ _).mp hcaught).1
    exact ⟨_, by rw [hrest]; rfl, rfl⟩

-- Whatever its calls answer, the handler ends with its only rename.
theorem recordFailure_move (claimed : PyStr) (e : PyExc) (calls : List (TaskCall cfg)) (r : Except PyExc Unit)
    (h : (recordFailure claimed e).Runs (Called WorkerAns (body cfg)) calls r) :
    ∃ before move, calls = before ++ [move] ∧ (∀ c ∈ before, c.op.target = none) ∧
      move.op.target = some ⟨.failed, claimed⟩ := by
  have hquiet : ∀ op : TaskOp, op.target = none →
      (call op).Emits (Called WorkerAns (body cfg)) fun c => c.op.target = none :=
    fun op hop => emits_op (fun op => op.target = none) op hop
  rcases (Prog.runs_bind _ _ _ _).mp h with ⟨now, clock, rest, rfl, hclock, hrest⟩ | ⟨e', -, hclock⟩
  · have hclock := hquiet (.sys .utcNow) rfl _ _ hclock
    rcases (Prog.runs_bind _ _ _ _).mp hrest with ⟨_, result, rest, rfl, hresult, hrest⟩ | ⟨e', -, hresult⟩
    · have hresult := (hquiet (.atomicResult _ _) rfl).catching (fun _ => Prog.emits_ret _) _ _ hresult
      obtain ⟨_, append, last, rfl, happend, hlast⟩ := (Prog.runs_finishing _ _ _ _).mp hrest
      have happend := ((hquiet (.sys .utcNow) rfl).bind fun now =>
        hquiet (.appendAudit (failedEvent (taskIdOf claimed) e now)) rfl) _ _ happend
      obtain ⟨move, rfl, hmove⟩ : ∃ move, last = [move] ∧ move.op.target = some ⟨.failed, claimed⟩ := by
        rcases hlast with ⟨hmove, -⟩ | ⟨e', -, hmove⟩
        · exact moveToFailed_move claimed _ _ hmove
        · exact moveToFailed_move claimed _ _ hmove
      refine ⟨clock ++ (result ++ append), move, by simp, ?_, hmove⟩
      exact List.forall_mem_append.mpr ⟨hclock, List.forall_mem_append.mpr ⟨hresult, happend⟩⟩
    · -- the handler around `atomic_result` lets nothing through
      rcases (Prog.runs_catching _ _ _ _).mp hresult with ⟨_, he, -⟩ | ⟨_, _, _, -, -, hcaught⟩
      · cases he
      · cases ((Prog.runs_ret _ _ _).mp hcaught).2
  · obtain ⟨steps, runs, rfl⟩ := runs_call _ _ _ hclock
    obtain ⟨now, hreturned⟩ := clock_returns steps _ runs
    cases hreturned

-- How the rest of the `try` block ends.
inductive Delivery : List (TaskCall cfg) → Except PyExc Unit → Prop
  | finished (calls : List (TaskCall cfg)) (hwrote : ∃ c ∈ calls, TaskCall.Wrote "COMPLETED" c)
      (happended : ∃ c ∈ calls, TaskCall.Appended "TASK_COMPLETED" c)
      (hquiet : ∀ c ∈ calls, ¬ TaskCall.Hindered c) : Delivery calls (.ok ())
  | broken (calls : List (TaskCall cfg)) (e : PyExc) (hmoved : ∀ c ∈ calls, ¬ TaskCall.Moved .done c)
      (hhindered : (∃ c ∈ calls, TaskCall.Wrote "COMPLETED" c) → ∃ c ∈ calls, TaskCall.Hindered c) :
      Delivery calls (.error e)

theorem deliver_delivery (claimed : PyStr) (result : TaskResult) (calls : List (TaskCall cfg))
    (r : Except PyExc Unit) (h : (deliver claimed result).Runs (Called WorkerAns (body cfg)) calls r) :
    Delivery calls r ∧ ∃ first rest, calls = first :: rest ∧ first.op.writes.isSome = true := by
  rcases (Prog.runs_bind _ _ _ _).mp h with ⟨_, first, rest, rfl, hwrite, hnow⟩ | ⟨e, rfl, hwrite⟩
  · obtain ⟨steps, runs, rfl⟩ := runs_call _ _ _ hwrite
    obtain ⟨hleaves, hquiet⟩ := atomicResult_written steps _ _ runs
    refine ⟨?_, _, rest, rfl, rfl⟩
    rcases (Prog.runs_bind _ _ _ _).mp hnow with ⟨now, clock, rest, rfl, hclock, hrest⟩ | ⟨e, rfl, hclock⟩
    · obtain ⟨clockSteps, clockRuns, rfl⟩ := runs_call _ _ _ hclock
      have hclockQuiet := (sys_hindered_iff clockSteps .utcNow (by decide) _ clockRuns).not.mpr (by simp)
      rcases (Prog.runs_bind _ _ _ _).mp hrest with ⟨_, append, rest, rfl, happend, hmove⟩ | ⟨e, rfl, happend⟩
      · obtain ⟨appendSteps, appendRuns, rfl⟩ := runs_call _ _ _ happend
        have hhindered := appendAudit_hindered_iff appendSteps _ _ appendRuns
        have hphase : phaseIs "TASK_COMPLETED" (completedEvent (taskIdOf claimed) result now) := rfl
        obtain ⟨moveSteps, moveRuns, rfl⟩ := runs_call _ _ _ hmove
        have hmoved := sys_hindered_iff moveSteps _ (by simp) _ moveRuns
        cases r with
        | ok u =>
            refine .finished _ ⟨_, List.mem_cons_self, _, _, rfl, result.lookup_status, hleaves⟩
              ⟨_, List.mem_cons_of_mem _ (List.mem_cons_of_mem _ List.mem_cons_self), ⟨_, rfl, hphase⟩, _, rfl⟩ ?_
            simp [hquiet, hclockQuiet, hhindered, hmoved]
        | error e =>
            refine .broken _ e ?_ fun _ => ⟨_, by simp, hmoved.mpr ⟨e, rfl⟩⟩
            simp [TaskCall.Moved, TaskOp.target]
      · obtain ⟨appendSteps, appendRuns, rfl⟩ := runs_call _ _ _ happend
        have hhindered := (appendAudit_hindered_iff appendSteps _ _ appendRuns).mpr ⟨e, rfl⟩
        refine .broken _ e ?_ fun _ => ⟨_, by simp, hhindered⟩
        simp [TaskCall.Moved, TaskOp.target]
    · obtain ⟨clockSteps, clockRuns, rfl⟩ := runs_call _ _ _ hclock
      obtain ⟨now, hreturned⟩ := clock_returns clockSteps _ clockRuns
      cases hreturned
  · obtain ⟨steps, runs, rfl⟩ := runs_call _ _ _ hwrite
    refine ⟨.broken _ e ?_ ?_, _, [], rfl, rfl⟩
    · simp [TaskCall.Moved, TaskOp.target]
    · rintro ⟨c, hc, taskId, payload, hwrites, -, hleaves⟩
      obtain rfl := List.mem_singleton.mp hc
      obtain ⟨rfl, rfl⟩ := Prod.mk.inj (Option.some.inj hwrites)
      exact ⟨_, hc, atomicResult_hindered steps _ _ e runs hleaves⟩

-- The calls of `process_one`.
inductive Course : List (TaskCall cfg) → Prop
  | unfinished (calls failing : List (TaskCall cfg)) (hcalls : ∀ c ∈ calls, Preparing c.op)
      (hfailing : ∀ c ∈ failing, Failing c.op) : Course (calls ++ failing)
  | finished (calls delivery : List (TaskCall cfg)) (hcalls : ∀ c ∈ calls, Preparing c.op)
      (hstart : ∃ first rest, delivery = first :: rest ∧ first.op.writes.isSome = true)
      (hdelivering : ∀ c ∈ delivery, Delivering c.op) (hdelivery : Delivery delivery (.ok ())) :
      Course (calls ++ delivery)
  | broken (calls delivery failing : List (TaskCall cfg)) (e : PyExc) (hcalls : ∀ c ∈ calls, Preparing c.op)
      (hstart : ∃ first rest, delivery = first :: rest ∧ first.op.writes.isSome = true)
      (hdelivering : ∀ c ∈ delivery, Delivering c.op) (hdelivery : Delivery delivery (.error e))
      (hfailing : ∀ c ∈ failing, Failing c.op) (hmove : ∃ before move name, failing = before ++ [move] ∧
        (∀ c ∈ before, c.op.target = none) ∧ move.op.target = some ⟨.failed, name⟩) :
      Course (calls ++ (delivery ++ failing))

theorem claimed_course (claim : List (TaskCall cfg)) (hclaim : ∀ c ∈ claim, Preparing c.op) (claimed : PyStr)
    (calls : List (TaskCall cfg)) (r : Except PyExc Unit)
    (h : (Prog.catching (recordFailure claimed) (complete cfg claimed)).Runs (Called WorkerAns (body cfg)) calls r) :
    Course (claim ++ calls) := by
  have hprepared : ∀ calls r, (prepare cfg claimed).Runs (Called WorkerAns (body cfg)) calls r →
      ∀ c ∈ claim ++ calls, Preparing c.op :=
    fun calls r h => List.forall_mem_append.mpr ⟨hclaim, prepare_preparing claimed calls r h⟩
  rcases (Prog.runs_catching _ _ _ _).mp h with ⟨_, rfl, hcomplete⟩ | ⟨e, body, failing, rfl, hcomplete, hfail⟩
  · obtain ⟨result, before, delivery, rfl, hprepare, hdeliver⟩ := (Prog.runs_bind_ok _ _ _ _).mp hcomplete
    obtain ⟨hdelivery, hstart⟩ := deliver_delivery claimed result _ _ hdeliver
    rw [← List.append_assoc]
    exact .finished _ delivery (hprepared _ _ hprepare) hstart (deliver_delivering _ _ _ _ hdeliver) hdelivery
  · have hfailing := recordFailure_failing claimed e _ _ hfail
    obtain ⟨first, move, hfirst⟩ := recordFailure_move claimed e _ _ hfail
    rcases (Prog.runs_bind _ _ _ _).mp hcomplete with ⟨result, before, delivery, rfl, hprepare, hdeliver⟩ |
      ⟨e', -, hprepare⟩
    · obtain ⟨hdelivery, hstart⟩ := deliver_delivery claimed result _ _ hdeliver
      rw [List.append_assoc, ← List.append_assoc]
      exact .broken _ delivery failing e (hprepared _ _ hprepare) hstart (deliver_delivering _ _ _ _ hdeliver)
        hdelivery hfailing ⟨first, move, claimed, hfirst⟩
    · rw [← List.append_assoc]
      exact .unfinished _ failing (hprepared _ _ hprepare) hfailing

theorem processOne_course (calls : List (TaskCall cfg)) (r : Except PyExc Bool)
    (h : (processOne cfg).Runs (Called WorkerAns (body cfg)) calls r) : Course calls := by
  have hclaiming : ∀ calls r, (call .claimOne).Runs (Called WorkerAns (body cfg)) calls r →
      ∀ c ∈ calls, Preparing c.op :=
    fun calls r h => emits_op Preparing .claimOne ⟨rfl, rfl, fun event h => by cases h⟩ calls r h
  rcases (Prog.runs_bind _ _ _ _).mp h with ⟨claimed, claim, rest, rfl, hclaim, hrest⟩ | ⟨e, rfl, hclaim⟩
  · have hpreparing := hclaiming _ _ hclaim
    cases claimed with
    | none =>
        obtain ⟨rfl, -⟩ := (Prog.runs_ret _ _ _).mp hrest
        exact .unfinished claim [] hpreparing (by simp)
    | some claimed =>
        rcases (Prog.runs_bind _ _ _ _).mp hrest with ⟨_, task, last, rfl, htask, hlast⟩ | ⟨e, rfl, htask⟩
        · obtain ⟨rfl, -⟩ := (Prog.runs_ret _ _ _).mp hlast
          rw [List.append_nil]
          exact claimed_course claim hpreparing claimed _ _ htask
        · exact claimed_course claim hpreparing claimed _ _ htask
  · exact List.append_nil calls ▸ .unfinished calls [] (hclaiming _ _ hclaim) (by simp)

theorem not_moved_failed (c : TaskCall cfg) (h : Preparing c.op ∨ Delivering c.op) : ¬ TaskCall.Moved .failed c := by
  rintro ⟨⟨name, htarget⟩, -⟩
  rcases h with h | h
  · rw [h.target] at htarget
    cases htarget
  · exact h.target name htarget

theorem not_moved_done (c : TaskCall cfg) (h : Preparing c.op ∨ Failing c.op) : ¬ TaskCall.Moved .done c := by
  rintro ⟨⟨name, htarget⟩, -⟩
  rcases h with h | h
  · rw [h.target] at htarget
    cases htarget
  · exact h.target name htarget

theorem not_wrote (c : TaskCall cfg) (h : Preparing c.op ∨ Failing c.op) : ¬ TaskCall.Wrote "COMPLETED" c := by
  rintro ⟨taskId, payload, hwrites, hstatus, -⟩
  rcases h with h | h
  · rw [h.writes] at hwrites
    cases hwrites
  · exact h.writes taskId payload hwrites hstatus

theorem delivering_eq (calls rest : List (TaskCall cfg)) (hcalls : ∀ c ∈ calls, Preparing c.op)
    (hstart : ∃ first later, rest = first :: later ∧ first.op.writes.isSome = true) :
    (calls ++ rest).dropWhile (fun c => c.op.writes.isNone) = rest := by
  obtain ⟨first, later, rfl, hfirst⟩ := hstart
  rw [List.dropWhile_append_of_pos fun c hc => by simp [(hcalls c hc).writes]]
  exact List.dropWhile_cons_of_neg (by simp [Option.isSome_iff_ne_none.mp hfirst])

-- What neither the preparation nor the handler does is done by the delivery.
theorem mem_delivery (P : TaskCall cfg → Prop) (hnot : ∀ c, Preparing c.op ∨ Failing c.op → ¬ P c)
    (calls delivery failing : List (TaskCall cfg)) (hcalls : ∀ c ∈ calls, Preparing c.op)
    (hfailing : ∀ c ∈ failing, Failing c.op) (c : TaskCall cfg) (hc : c ∈ calls ++ (delivery ++ failing)) (h : P c) :
    c ∈ delivery := by
  rcases List.mem_append.mp hc with hc | hc
  · exact absurd h (hnot c (.inl (hcalls c hc)))
  rcases List.mem_append.mp hc with hc | hc
  · exact hc
  · exact absurd h (hnot c (.inr (hfailing c hc)))

-- Only the handler's last call renames into failed.
theorem eq_move (calls delivery before : List (TaskCall cfg)) (move : TaskCall cfg)
    (hcalls : ∀ c ∈ calls, Preparing c.op) (hdelivering : ∀ c ∈ delivery, Delivering c.op)
    (hbefore : ∀ c ∈ before, c.op.target = none) (c : TaskCall cfg)
    (hc : c ∈ calls ++ (delivery ++ (before ++ [move]))) (name : PyStr) (hname : c.op.target = some ⟨.failed, name⟩) :
    c = move := by
  rcases List.mem_append.mp hc with hc | hc
  · exact absurd hname (by simp [(hcalls c hc).target])
  rcases List.mem_append.mp hc with hc | hc
  · exact absurd hname ((hdelivering c hc).target name)
  rcases List.mem_append.mp hc with hc | hc
  · exact absurd hname (by simp [hbefore c hc])
  · exact List.mem_singleton.mp hc

end Course

-- Queue, result and log agree about the task exactly when the delivery of the
-- COMPLETED result is not hindered.
theorem records_agree_iff (t : Task cfg) : t.Agrees ↔ t.DeliveryUnhindered := by
  obtain ⟨calls, outcome, runs⟩ := t
  simp only [Task.Agrees, Task.DeliveryUnhindered, Task.delivering]
  cases processOne_course calls outcome runs with
  | unfinished calls failing hcalls hfailing =>
      have hwrote : ¬ ∃ c ∈ calls ++ failing, TaskCall.Wrote "COMPLETED" c := by
        rintro ⟨c, hc, h⟩
        exact not_wrote c ((List.mem_append.mp hc).imp (hcalls c) (hfailing c)) h
      have hmoved : ¬ ∃ c ∈ calls ++ failing, TaskCall.Moved .done c := by
        rintro ⟨c, hc, h⟩
        exact not_moved_done c ((List.mem_append.mp hc).imp (hcalls c) (hfailing c)) h
      simp only [hwrote, hmoved, false_imp_iff, and_true, not_false_iff, imp_true_iff]
  | finished calls delivery hcalls hstart hdelivering hdelivery =>
      cases hdelivery with
      | finished hwrote happended hquiet =>
          rw [delivering_eq calls delivery hcalls hstart]
          have hmoved : ∀ c ∈ calls ++ delivery, ¬ TaskCall.Moved .failed c :=
            fun c hc => not_moved_failed c ((List.mem_append.mp hc).imp (hcalls c) (hdelivering c))
          refine iff_of_true ⟨?_, fun _ => ⟨?_, ?_, ?_⟩⟩ fun _ => .inl hquiet
          · rintro ⟨c, hc, h⟩
            exact absurd h (hmoved c hc)
          · obtain ⟨c, hc, h⟩ := hwrote
            exact ⟨c, List.mem_append_right _ hc, h⟩
          · obtain ⟨c, hc, h⟩ := happended
            exact ⟨c, List.mem_append_right _ hc, h⟩
          · rintro ⟨c, hc, ⟨event, hevent, hphase⟩, -⟩
            rcases List.mem_append.mp hc with hc | hc
            · exact (hcalls c hc).event event hevent hphase
            · exact (hdelivering c hc).event event hevent hphase
  | broken calls delivery failing e hcalls hstart hdelivering hdelivery hfailing hmove =>
      obtain ⟨before, move, name, rfl, hbefore, htarget⟩ := hmove
      have hmoveMem : move ∈ calls ++ (delivery ++ (before ++ [move])) := by simp
      cases hdelivery with
      | broken _ hmoved hhindered =>
          have hstart' : ∃ first later, delivery ++ (before ++ [move]) = first :: later ∧
              first.op.writes.isSome = true := by
            obtain ⟨first, later, rfl, hfirst⟩ := hstart
            exact ⟨first, later ++ (before ++ [move]), rfl, hfirst⟩
          rw [delivering_eq calls _ hcalls hstart']
          have hdone : ¬ ∃ c ∈ calls ++ (delivery ++ (before ++ [move])), TaskCall.Moved .done c := by
            rintro ⟨c, hc, h⟩
            exact hmoved c (mem_delivery _ not_moved_done calls delivery _ hcalls hfailing c hc h) h
          have hwrote : (∃ c ∈ calls ++ (delivery ++ (before ++ [move])), TaskCall.Wrote "COMPLETED" c) →
              ∃ c ∈ delivery ++ (before ++ [move]), TaskCall.Hindered c := by
            rintro ⟨c, hc, h⟩
            have hmem := mem_delivery _ not_wrote calls delivery _ hcalls hfailing c hc h
            obtain ⟨c, hc, h⟩ := hhindered ⟨c, hmem, h⟩
            exact ⟨c, List.mem_append_left _ hc, h⟩
          constructor
          · rintro ⟨hfailed, -⟩ hcompleted
            cases hanswer : move.answer with
            | ok b => exact absurd hcompleted (hfailed ⟨move, hmoveMem, ⟨name, htarget⟩, b, hanswer⟩)
            | error e => exact .inr ⟨move, hmoveMem, ⟨name, htarget⟩, e, hanswer⟩
          · intro hunhindered
            refine ⟨?_, fun h => absurd h hdone⟩
            rintro ⟨c, hc, ⟨target, hname⟩, b, hb⟩ hcompleted
            rcases hunhindered hcompleted with hquiet | ⟨c', hc', ⟨target', hname'⟩, e, he⟩
            · obtain ⟨c, hc, h⟩ := hwrote hcompleted
              exact hquiet c hc h
            · -- the handler's rename cannot have succeeded and failed
              obtain rfl := eq_move calls delivery before move hcalls hdelivering hbefore c hc target hname
              obtain rfl := eq_move calls delivery before c hcalls hdelivering hbefore c' hc' target' hname'
              rw [hb] at he
              cases he

section Sample

-- A machine on which the operations succeed for one pending task. It is told at
-- which attempts another process holds the audit lock.
structure Machine where
  content : Bytes
  lockHeld : List Bool
  resultExists : Bool

theorem sampleTime_chars : ∀ c ∈ py "2026-01-01T00:00:00.000Z", 0x20 ≤ c.val ∧ c.val < 0x7F := by
  have hall : (py "2026-01-01T00:00:00.000Z").all (fun c => 0x20 ≤ c.val ∧ c.val < 0x7F) = true := by decide
  simpa only [List.all_eq_true, decide_eq_true_eq] using hall

def sampleTime : UtcTime := ⟨py "2026-01-01T00:00:00.000Z", sampleTime_chars⟩

theorem sampleUptime_number : Json.isFinite (roundFloat 3 1.5) = true := by decide +kernel

def sampleUptime : Uptime := ⟨1.5, sampleUptime_number⟩

def sampleUuid : UuidHex := ⟨List.replicate 32 (cp '0'), rfl⟩

def sampleCount : FileCount := ⟨0, by decide⟩

namespace Machine

def reply (m : Machine) : (op : WorkerOp) → Except PyExc op.Res × Machine
  | .audit .utcNow => (.ok sampleTime, m)
  | .audit .createLock =>
      (if m.lockHeld.headD false then .error .fileExists else .ok (), { m with lockHeld := m.lockHeld.tail })
  | .audit .makeParent => (.ok (), m)
  | .audit (.writeLock _) => (.ok (), m)
  | .audit .syncLock => (.ok (), m)
  | .audit .openLog => (.ok (), m)
  | .audit (.writeLine _) => (.ok (), m)
  | .audit .syncLog => (.ok (), m)
  | .audit .closeLog => (.ok (), m)
  | .audit .closeLock => (.ok (), m)
  | .audit .unlinkLock => (.ok (), m)
  | .utcNow => (.ok sampleTime, m)
  | .uptime => (.ok sampleUptime, m)
  | .uuid4 => (.ok sampleUuid, m)
  | .listPending => (.ok [py "job.json"], m)
  | .countFiles _ => (.ok sampleCount, m)
  | .rename _ _ => (.ok (), m)
  | .statClaimed _ => (.ok m.content.length, m)
  | .readClaimed _ => (.ok m.content, m)
  | .resolveWorkspace path => (.ok path, m)
  | .readWorkspace _ => (.error .fileNotFound, m)
  | .createResult _ =>
      if m.resultExists then (.error .fileExists, m) else (.ok (), { m with resultExists := true })
  | .openResult _ => (.ok (), m)
  | .writeResult _ _ => (.ok (), m)
  | .syncResult _ => (.ok (), m)
  | .closeResult _ => (.ok (), m)
  | .unlinkResult _ => (.ok (), { m with resultExists := false })

def answer (m : Machine) (op : WorkerOp) : WorkerStep × Except PyExc op.Res × Machine :=
  (⟨op, (m.reply op).1⟩, m.reply op)

theorem answer_workerAns (m : Machine) (op : WorkerOp) : WorkerAns (m.answer op).1 op (m.answer op).2.1 := by
  refine .answered op _ fun htotal => ?_
  cases op with
  | audit op =>
      cases op with
      | utcNow => exact ⟨_, rfl⟩
      | _ => cases htotal
  | utcNow => exact ⟨_, rfl⟩
  | uptime => exact ⟨_, rfl⟩
  | _ => cases htotal

def task (cfg : Config) (m : Machine) : Task cfg :=
  let calls := Call.play (body cfg) answer answer_workerAns
  let run := (processOne cfg).play calls m
  ⟨run.1, run.2.1, Prog.play_runs calls (Call.play_called (body cfg) answer answer_workerAns) (processOne cfg) m⟩

end Machine

def sampleConfig : Config :=
  ⟨⟨fun _ => zeroDigest, fun _ => true, 900⟩, py "worker-1", 7, py "/app/runtime/v91-actions.jsonl.lock"⟩

def sampleTask : Fields :=
  [label "task_id" (py "job"), label "action" (py "health_snapshot"), label "purpose" (py "Check the queue."),
    label "expected_effect" (py "A result file.")]

def sampleContent : Bytes := (eventLine sampleConfig.rt (.obj sampleTask)).toOption.getD []

-- Another worker appends at the moment at which the task is to be recorded as
-- completed.
def contendedTask : Task sampleConfig := Machine.task sampleConfig ⟨sampleContent, [false, false, true], false⟩

theorem returned_of_toBool {α : Type} (r : Except PyExc α) (h : r.toBool = true) : ∃ b, r = .ok b := by
  cases r with
  | ok b => exact ⟨b, rfl⟩
  | error e => cases h

theorem wrote_of_returned (status : String) (c : TaskCall cfg) (result : PyStr × Fields)
    (hwrites : c.op.writes = some result) (hstatus : statusIs status result.2)
    (hreturned : c.answer.toBool = true) : TaskCall.Wrote status c := by
  obtain ⟨b, hb⟩ := returned_of_toBool _ hreturned
  obtain ⟨op, steps, r, runs⟩ := c
  cases op with
  | atomicResult taskId' payload' =>
      obtain rfl := Option.some.inj hwrites
      obtain rfl : r = .ok () := hb
      exact ⟨_, _, rfl, hstatus, (atomicResult_written steps _ _ runs).1⟩
  | _ => cases hwrites

-- The task is in `failed` although its COMPLETED result stands.
theorem contended_task_disagrees : ¬ contendedTask.Agrees := by
  have hmoved : (contendedTask.calls.any fun c =>
      c.op.target.any (fun place => place.dir = .failed) && c.answer.toBool) = true := by decide +kernel
  have hwrote : (contendedTask.calls.any fun c => c.op.writes.any (fun result =>
      Json.lookup (py "status") result.2 = some (.str (py "COMPLETED"))) && c.answer.toBool) = true := by
    decide +kernel
  obtain ⟨moved, hmovedMem, hmoved⟩ := List.any_eq_true.mp hmoved
  obtain ⟨wrote, hwroteMem, hwrote⟩ := List.any_eq_true.mp hwrote
  simp only [Bool.and_eq_true, Option.any_eq_true_iff_get, decide_eq_true_eq] at hmoved hwrote
  obtain ⟨⟨hsome, hdir⟩, hreturned⟩ := hmoved
  obtain ⟨⟨hsome', hstatus⟩, hreturned'⟩ := hwrote
  have hfailed : TaskCall.Moved .failed moved := by
    refine ⟨⟨(moved.op.target.get hsome).name, ?_⟩, returned_of_toBool _ hreturned⟩
    rw [← hdir]
    exact (Option.some_get hsome).symm
  have hcompleted : TaskCall.Wrote "COMPLETED" wrote :=
    wrote_of_returned "COMPLETED" wrote _ (Option.some_get hsome').symm hstatus hreturned'
  exact fun h => h.1 ⟨moved, hmovedMem, hfailed⟩ ⟨wrote, hwroteMem, hcompleted⟩

end Sample

end V91Core.Worker
