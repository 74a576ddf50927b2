import V91Core.Control.Model

namespace V91Core.Control

open V91Core.Python V91Core.Effect V91Core.Audit

-- The percentages of `docker stats` for one container, where `parse_percent` may
-- have refused a text.
structure Stats where
  cpu : Except PyExc Percent
  memory : Except PyExc Percent

-- What Docker says about one worker container. A container without an
-- identifiable name has the empty one.
structure WorkerReport where
  name : PyStr
  state : PyStr
  health : PyStr
  stats : Option Stats

-- What the functions below ask of the machine. `readDocker` is the reading of the
-- `docker` commands, and `composeUp` the command that `scale_worker` runs.
inductive SysOp where
  | audit (op : AuditOp)
  | utcNow
  | uuid4
  | readDocker
  | composeUp (replicas : Int)
  | readState
  | makeStateParent
  | openTemp
  | writeTemp (content : Bytes)
  | syncTemp
  | closeTemp
  | replaceState
  | unlinkTemp
deriving DecidableEq

abbrev SysOp.Res : SysOp → Type
  | .audit op => op.Res
  | .utcNow => UtcTime
  | .uuid4 => PyStr
  | .readDocker => List WorkerReport
  | .readState => Bytes
  | _ => Unit

abbrev Action := Prog SysOp SysOp.Res PyExc

abbrev perform (op : SysOp) : Action op.Res := Prog.perform op

-- The clock and the UUID generator do not fail.
def SysOp.total : SysOp → Bool
  | .audit .utcNow | .utcNow | .uuid4 => true
  | _ => false

abbrev SysStep := Answered SysOp SysOp.Res PyExc

inductive SysAns : SysStep → (op : SysOp) → Except PyExc op.Res → Prop
  | answered (op : SysOp) (r : Except PyExc op.Res) (htotal : op.total = true → ∃ b, r = .ok b) :
      SysAns ⟨op, r⟩ op r

-- What stays the same from cycle to cycle.
structure Config where
  rt : Runtime
  pid : Nat
  projectName : PyStr
  runtimeDirIsAbsolute : Bool
  auditLockPath : PyStr

variable (cfg : Config)

-- The loop of `collect_snapshot`.
def observeWorker (worker : WorkerReport) : Except PyExc Container := do
  if worker.name = [] then
    .error (.controlError (py "A worker container has no identifiable name."))
  match worker.stats with
  | none => .error (.controlError
      (py "Worker state is not fully measurable/healthy; no automatic action allowed."))
  | some stats =>
      if worker.state ≠ py "running" ∨ worker.health = py "unhealthy" ∨ worker.health = py "starting" then
        .error (.controlError (py "Worker state is not fully measurable/healthy; no automatic action allowed."))
      let cpu ← stats.cpu
      let memory ← stats.memory
      let health := if worker.health = [] then py "not-reported" else worker.health
      return ⟨worker.name, worker.state, health, cpu, memory⟩

def collectSnapshot : Action Snapshot := do
  let workers : List WorkerReport ← perform .readDocker
  match ← Prog.ofExcept (workers.mapM observeWorker) with
  | [] => .raise (.controlError (py "No worker containers were found; refusing to infer a healthy baseline."))
  | first :: others =>
      let now : UtcTime ← perform .utcNow
      return ⟨now, cfg.projectName, first, others⟩

def readLowSampleCount : Action Nat :=
  Prog.catching (fun e => if corruptState e then .ret 0 else .raise e) do
    let content : Bytes ← perform .readState
    Prog.ofExcept (lowSampleCount cfg.rt content)

-- The `with` block of `write_state`.
def fillTemp (lowSamples : Nat) (now : UtcTime) : Action Unit := do
  perform .openTemp
  Prog.finishing (perform .closeTemp) do
    let content ← Prog.ofExcept (stateContent cfg.rt lowSamples now)
    perform (.writeTemp content)
    perform .syncTemp

def removeTemp : Action Unit :=
  Prog.catching (fun e => if e = .fileNotFound then .ret () else .raise e) (perform .unlinkTemp)

-- The name of the temporary file is unique.
def writeState (lowSamples : Nat) : Action Unit := do
  perform .makeStateParent
  let _ : PyStr ← perform .uuid4
  let now : UtcTime ← perform .utcNow
  Prog.finishing removeTemp do
    fillTemp cfg lowSamples now
    perform .replaceState

def outsideLimit : PyExc :=
  .controlError (py "Requested worker replica count is outside the hard-coded 1..3 limit.")

def scaleWorker (replicas : Int) : Action Unit :=
  if minReplicas ≤ replicas ∧ replicas ≤ maxReplicas then perform (.composeUp replicas)
  else .raise outsideLimit

-- The functions that `run_cycle` calls.
inductive CycleOp where
  | collectSnapshot
  | readLowSampleCount
  | writeState (lowSamples : Nat)
  | uuid4
  | utcNow
  | appendAudit (event : List (PyStr × Json))
  | scaleWorker (replicas : Int)

abbrev CycleOp.Res : CycleOp → Type
  | .collectSnapshot => Snapshot
  | .readLowSampleCount => Nat
  | .uuid4 => PyStr
  | .utcNow => UtcTime
  | _ => Unit

def body : (op : CycleOp) → Action op.Res
  | .collectSnapshot => collectSnapshot cfg
  | .readLowSampleCount => readLowSampleCount cfg
  | .writeState lowSamples => writeState cfg lowSamples
  | .uuid4 => perform .uuid4
  | .utcNow => perform .utcNow
  | .appendAudit event =>
      (Audit.appendAudit cfg.rt cfg.pid cfg.auditLockPath (.obj event)).lift .audit fun _ b => b
  | .scaleWorker replicas => scaleWorker replicas

-- A call with what the called function did and how it ended.
structure Call where
  op : CycleOp
  steps : List SysStep
  answer : Except PyExc op.Res
  runs : (body cfg op).Runs SysAns steps answer

inductive Called : Call cfg → (op : CycleOp) → Except PyExc op.Res → Prop
  | mk (op : CycleOp) (steps : List SysStep) (r : Except PyExc op.Res)
      (runs : (body cfg op).Runs SysAns steps r) : Called ⟨op, steps, r, runs⟩ op r

abbrev CycleAction := Prog CycleOp CycleOp.Res PyExc

abbrev call (op : CycleOp) : CycleAction op.Res := Prog.perform op

def appendAudit (event : List (PyStr × Json)) : CycleAction Unit := call (.appendAudit event)

-- `except ControlError` of the first observation.
def recordNoData (e : PyExc) : CycleAction (List (PyStr × Json)) := do
  let eventId : PyStr ← call .uuid4
  let now : UtcTime ← call .utcNow
  let event := noDataEvent eventId now cfg.projectName e
  appendAudit event
  return event

def postCheckFailed : PyExc :=
  .controlError (py "Post-action replica count or running-state verification failed.")

-- The `try` block.
def actAndVerify (s : Snapshot) (action : ScaleAction) (eventId : PyStr) (result : List (PyStr × Json)) :
    CycleAction (List (PyStr × Json)) := do
  let target := target s (some action)
  call (.scaleWorker target)
  let post : Snapshot ← call .collectSnapshot
  if post.replicas ≠ target ∨ post.running ≠ target then .raise postCheckFailed
  else do
    let effect := measureEffect s post action
    let now : UtcTime ← call .utcNow
    appendAudit (verifyEvent eventId now s post target effect)
    return update result ([text "status" (py "ACTION_VERIFIED"), field "after" post.json] ++ effect)

-- Whether the rollback is confirmed.
def restore (s : Snapshot) : CycleAction Bool := do
  call (.scaleWorker s.replicas)
  let rollback : Snapshot ← call .collectSnapshot
  return rollback.replicas = s.replicas ∧ rollback.running = s.replicas

def rollbackStatus : Except PyExc Bool → PyStr
  | .ok true => py "ROLLED_BACK"
  | _ => py "ROLLBACK_FAILED"

def rollbackDetail (e : PyExc) : Except PyExc Bool → PyStr
  | .ok true => e.typeName
  | .ok false => py "Rollback post-check did not match the original replica count."
  | .error rollbackExc => e.typeName ++ py "; rollback " ++ rollbackExc.typeName

-- The `except Exception` block.
def rollBack (s : Snapshot) (action : ScaleAction) (eventId : PyStr) (result : List (PyStr × Json))
    (e : PyExc) : CycleAction (List (PyStr × Json)) := do
  let outcome ← (restore s).attempt
  let now : UtcTime ← call .utcNow
  appendAudit (rollbackEvent eventId now s (target s (some action)) (rollbackStatus outcome) e
    (rollbackDetail e outcome))
  return update result [text "status" (rollbackStatus outcome), text "failure_type" e.typeName]

def runtimeDirNotAbsolute : PyExc := .controlError (py "Runtime directory must be absolute.")

-- The record that precedes every action.
def recordDecision (allowActions allowScaleDown : Bool) (s : Snapshot) (action : Option ScaleAction)
    (reason : PyStr) : CycleAction (PyStr × List (PyStr × Json)) := do
  let eventId : PyStr ← call .uuid4
  let now : UtcTime ← call .utcNow
  let event := decisionEvent eventId now cfg.projectName s action reason allowActions allowScaleDown
  appendAudit event
  return (eventId, event)

-- What follows the record.
def actOn (allowActions allowScaleDown : Bool) (s : Snapshot) (action : Option ScaleAction) (eventId : PyStr)
    (event : List (PyStr × Json)) : CycleAction (List (PyStr × Json)) :=
  match action with
  | none => return event
  | some action =>
      if allowActions = false ∨ (action = .scaleDownWorkers ∧ allowScaleDown = false) then return event
      else (actAndVerify s action eventId event).catching (rollBack s action eventId event)

-- What follows the observation.
def decideAndAct (allowActions allowScaleDown : Bool) (s : Snapshot) : CycleAction (List (PyStr × Json)) := do
  let lowSamples : Nat ← call .readLowSampleCount
  let (action, nextLowSamples, reason) := decide s lowSamples
  call (.writeState nextLowSamples)
  let (eventId, event) ← recordDecision cfg allowActions allowScaleDown s action reason
  actOn allowActions allowScaleDown s action eventId event

def runCycle (allowActions allowScaleDown : Bool) : CycleAction (List (PyStr × Json)) :=
  if cfg.runtimeDirIsAbsolute then do
    match ← (call .collectSnapshot).attempt with
    | .ok s => decideAndAct cfg allowActions allowScaleDown s
    | .error e =>
        match e with
        | .controlError _ => recordNoData cfg e
        | _ => .raise e
  else .raise runtimeDirNotAbsolute

-- A finished call of `run_cycle`.
structure Cycle where
  allowActions : Bool
  allowScaleDown : Bool
  calls : List (Call cfg)
  outcome : Except PyExc (List (PyStr × Json))
  runs : (runCycle cfg allowActions allowScaleDown).Runs (Called cfg) calls outcome

end V91Core.Control
