import V91Core.Control.Calls

namespace V91Core.Control

open V91Core.Python V91Core.Effect V91Core.Audit

-- The state file and what has been written to the temporary file.
structure StateFile where
  content : Option Bytes
  temp : Bytes

-- A machine on which the operations succeed. It is told what Docker reports, one
-- reading after the other, and at which attempts another process holds the audit lock.
structure Machine where
  now : UtcTime
  reports : List (Except PyExc (List WorkerReport))
  lockHeld : List Bool
  state : StateFile

namespace Machine

def reply (m : Machine) : (op : SysOp) → Except PyExc op.Res × Machine
  | .audit .utcNow => (.ok m.now, m)
  | .audit .createLock =>
      (if m.lockHeld.headD false then .error .fileExists else .ok (), { m with lockHeld := m.lockHeld.tail })
  | .audit .makeParent => (.ok (), m)
  | .audit (.writeLock _) => (.ok (), m)
  | .audit .syncLock => (.ok (), m)
  | .audit .openLog => (.ok (), m)
  | .audit (.writeLine _) => (.ok (), m)
  | .audit .syncLog => (.ok (), m)
  | .audit .closeLog => (.ok (), m)
  | .audit .closeLock => (.ok (), m)
  | .audit .unlinkLock => (.ok (), m)
  | .utcNow => (.ok m.now, m)
  | .uuid4 => (.ok (py "00000000-0000-4000-8000-000000000000"), m)
  | .readDocker =>
      (m.reports.headD (.error (.controlError (py "Command could not be completed: docker (OSError)."))),
        { m with reports := m.reports.tail })
  | .composeUp _ => (.ok (), m)
  | .readState =>
      match m.state.content with
      | none => (.error .fileNotFound, m)
      | some content => (.ok content, m)
  | .makeStateParent => (.ok (), m)
  | .openTemp => (.ok (), { m with state := { m.state with temp := [] } })
  | .writeTemp content => (.ok (), { m with state := { m.state with temp := content } })
  | .syncTemp => (.ok (), m)
  | .closeTemp => (.ok (), m)
  | .replaceState => (.ok (), { m with state := ⟨some m.state.temp, []⟩ })
  | .unlinkTemp => (.error .fileNotFound, m)

def answer (m : Machine) (op : SysOp) : SysStep × Except PyExc op.Res × Machine :=
  (⟨op, (m.reply op).1⟩, m.reply op)

theorem answer_sysAns (m : Machine) (op : SysOp) : SysAns (m.answer op).1 op (m.answer op).2.1 := by
  refine .answered op _ fun htotal => ?_
  cases op with
  | audit op =>
      cases op with
      | utcNow => exact ⟨_, rfl⟩
      | _ => cases htotal
  | utcNow => exact ⟨_, rfl⟩
  | uuid4 => exact ⟨_, rfl⟩
  | _ => cases htotal

def callAnswer (cfg : Config) (m : Machine) (op : CycleOp) : Call cfg × Except PyExc op.Res × Machine :=
  let run := (body cfg op).play answer m
  (⟨op, run.1, run.2.1, Prog.play_runs answer answer_sysAns (body cfg op) m⟩, run.2)

theorem callAnswer_called (cfg : Config) (m : Machine) (op : CycleOp) :
    Called cfg (m.callAnswer cfg op).1 op (m.callAnswer cfg op).2.1 := .mk _ _ _ _

def cycle (cfg : Config) (allowActions allowScaleDown : Bool) (m : Machine) : Cycle cfg :=
  let run := (runCycle cfg allowActions allowScaleDown).play (callAnswer cfg) m
  ⟨allowActions, allowScaleDown, run.1, run.2.1,
    Prog.play_runs (callAnswer cfg) (callAnswer_called cfg) (runCycle cfg allowActions allowScaleDown) m⟩

-- The machine after the cycle.
def next (cfg : Config) (allowActions allowScaleDown : Bool) (m : Machine) : Machine :=
  ((runCycle cfg allowActions allowScaleDown).play (callAnswer cfg) m).2.2

-- This many cycles, one after the other.
def run (cfg : Config) (allowActions allowScaleDown : Bool) : Nat → Machine → List (Cycle cfg)
  | 0, _ => []
  | n + 1, m => m.cycle cfg allowActions allowScaleDown ::
      run cfg allowActions allowScaleDown n (m.next cfg allowActions allowScaleDown)

end Machine

section Sample

def sampleConfig : Config :=
  ⟨⟨fun _ => zeroDigest, fun _ => true, 900⟩, 4242, py "v91", true, py "/srv/v91/runtime/v91-actions.jsonl.lock"⟩

theorem sampleTime_chars :
    ∀ c ∈ py "2026-01-01T00:00:00.000Z", 0x20 ≤ c.val ∧ c.val < 0x7F := by
  have hall : (py "2026-01-01T00:00:00.000Z").all (fun c => 0x20 ≤ c.val ∧ c.val < 0x7F) = true := by decide
  simpa only [List.all_eq_true, decide_eq_true_eq] using hall

def sampleTime : UtcTime := ⟨py "2026-01-01T00:00:00.000Z", sampleTime_chars⟩

theorem percent_ten : Json.isFinite 10.0 = true ∧ (0.0 : Float) ≤ 10.0 := by decide +kernel

theorem percent_ninety : Json.isFinite 90.0 = true ∧ (0.0 : Float) ≤ 90.0 := by decide +kernel

def idleStats : Stats := ⟨.ok ⟨10.0, percent_ten⟩, .ok ⟨10.0, percent_ten⟩⟩

def busyStats : Stats := ⟨.ok ⟨90.0, percent_ninety⟩, .ok ⟨10.0, percent_ten⟩⟩

-- This many healthy workers.
def workers (stats : Stats) (count : Nat) : List WorkerReport :=
  (List.range count).map fun i =>
    ⟨py "v91-worker-" ++ natText (i + 1), py "running", py "healthy", some stats⟩

end Sample

end V91Core.Control
