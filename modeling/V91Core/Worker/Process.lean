import V91Core.Effect.Layer
import V91Core.Worker.Task

namespace V91Core.Worker

open V91Core.Python V91Core.Effect V91Core.Audit

inductive Dir where
  | pending
  | processing
  | done
  | failed
deriving DecidableEq

-- A file of the queue.
structure Place where
  dir : Dir
  name : PyStr
deriving DecidableEq

-- `uuid.uuid4().hex`.
abbrev UuidHex := { text : PyStr // text.length = 32 }

-- What the worker asks of the operating system. `resolveWorkspace` is what
-- `workspace_file` does with a path that is a string.
inductive WorkerOp where
  | audit (op : AuditOp)
  | utcNow
  | uptime
  | uuid4
  | listPending
  | countFiles (dir : Dir)
  | rename (source target : Place)
  | statClaimed (name : PyStr)
  | readClaimed (name : PyStr)
  | resolveWorkspace (relativePath : PyStr)
  | readWorkspace (path : PyStr)
  | createResult (taskId : PyStr)
  | openResult (taskId : PyStr)
  | writeResult (taskId : PyStr) (content : Bytes)
  | syncResult (taskId : PyStr)
  | closeResult (taskId : PyStr)
  | unlinkResult (taskId : PyStr)
deriving DecidableEq

abbrev WorkerOp.Res : WorkerOp → Type
  | .audit op => op.Res
  | .utcNow => UtcTime
  | .uptime => Uptime
  | .uuid4 => UuidHex
  | .listPending => List PyStr
  | .countFiles _ => FileCount
  | .statClaimed _ => Nat
  | .readClaimed _ => Bytes
  | .resolveWorkspace _ => PyStr
  | .readWorkspace _ => Bytes
  | _ => Unit

abbrev Action := Prog WorkerOp WorkerOp.Res PyExc

abbrev perform (op : WorkerOp) : Action op.Res := Prog.perform op

-- The clocks do not fail.
def WorkerOp.total : WorkerOp → Bool
  | .audit .utcNow | .utcNow | .uptime => true
  | _ => false

structure Config where
  rt : Runtime
  hostname : PyStr
  pid : Nat
  auditLockPath : PyStr

variable (cfg : Config)

def Config.workerId : PyStr := cfg.hostname ++ py ":" ++ natText cfg.pid

section Claim

-- `glob("*.json")`.
def isTaskFile (name : PyStr) : Bool := (py ".json").isSuffixOf name

-- `source.stem`. A name that starts with its last dot has no suffix.
def stem (name : PyStr) : PyStr := if name = py ".json" then name else name.take (name.length - 5)

def claimName (source : PyStr) (u : UuidHex) : PyStr :=
  stem source ++ py "." ++ cfg.hostname ++ py "." ++ natText cfg.pid ++ py "." ++ u.val ++ py ".json"

-- `claimed.name.split(".", 1)[0]`.
def taskIdOf (name : PyStr) : PyStr := name.takeWhile (· ≠ cp '.')

-- The loop of `claim_one`.
def claimFrom : List PyStr → Action (Option PyStr)
  | [] => return none
  | source :: rest => do
      let u : UuidHex ← perform .uuid4
      let target := claimName cfg source u
      match ← (perform (.rename ⟨.pending, source⟩ ⟨.processing, target⟩)).attempt with
      | .ok _ => return some target
      | .error e => if e = .fileNotFound ∨ e = .fileExists then claimFrom rest else .raise e

def claimOne : Action (Option PyStr) := do
  let names : List PyStr ← perform .listPending
  claimFrom cfg ((names.filter isTaskFile).insertionSort fun a b => strLe a b = true)

end Claim

section Execute

-- `task.get(key)`.
def taskGet (key : String) : Json → Option Json
  | .obj fields => Json.lookup (py key) fields
  | _ => none

-- The first check of `workspace_file`.
def requirePath : Option Json → Except PyExc PyStr
  | some (.str s) => if strip s = [] then .error (.controlError (py "relative_path is required.")) else .ok s
  | _ => .error (.controlError (py "relative_path is required."))

def expectedSha256 : Option Json → Except PyExc PyStr
  | some (.str s) =>
      if isSha256 s then .ok s
      else .error (.controlError (py "expected_sha256 must contain exactly 64 hexadecimal characters."))
  | _ => .error (.controlError (py "expected_sha256 must contain exactly 64 hexadecimal characters."))

-- The last part of `execute_task`.
def compareFile (task : Json) (action : TaskAction) (relativePath : PyStr) (content : Bytes) :
    Except PyExc Finding :=
  let digest := cfg.rt.sha256Hex content
  if action = .sha256File then .ok (.digest relativePath digest content.length)
  else do
    let expected ← expectedSha256 (taskGet "expected_sha256" task)
    let matchesExpected ← ofOption .typeError (compareDigest (lower digest) (lower expected))
    return .verification relativePath digest content.length matchesExpected

def executeTask (task : Json) (taskId : PyStr) : Action TaskResult := do
  let envelope ← Prog.ofExcept (validateTaskEnvelope task taskId)
  let now : UtcTime ← perform .utcNow
  if envelope.action = .healthSnapshot then do
    let pending : FileCount ← perform (.countFiles .pending)
    let processing : FileCount ← perform (.countFiles .processing)
    let uptime : Uptime ← perform .uptime
    return ⟨taskId, envelope, now, .health cfg.workerId uptime pending processing⟩
  else do
    let relativePath ← Prog.ofExcept (requirePath (taskGet "relative_path" task))
    let path : PyStr ← perform (.resolveWorkspace relativePath)
    let content : Bytes ← perform (.readWorkspace path)
    let finding ← Prog.ofExcept (compareFile cfg task envelope.action relativePath content)
    return ⟨taskId, envelope, now, finding⟩

end Execute

section Result

def resultExists : PyExc :=
  .controlError (py "A result already exists for this task_id; refusing to overwrite it.")

-- `os.open` with `O_CREAT | O_EXCL`.
def createResult (taskId : PyStr) : Action Unit :=
  Prog.catching (fun e => if e = .fileExists then .raise resultExists else .raise e)
    (perform (.createResult taskId))

-- The `with` block.
def fillResult (taskId : PyStr) (content : Bytes) : Action Unit := do
  perform (.openResult taskId)
  Prog.finishing (perform (.closeResult taskId)) do
    perform (.writeResult taskId content)
    perform (.syncResult taskId)

-- `except Exception`. The exception is raised again.
def discardResult (taskId : PyStr) (e : PyExc) : Action Unit := do
  Prog.catching (fun e => if e.isOSError then .ret () else .raise e) (perform (.unlinkResult taskId))
  Prog.raise e

def atomicResult (rt : Runtime) (taskId : PyStr) (payload : Fields) : Action Unit :=
  if isTaskId taskId then do
    let content ← Prog.ofExcept (encodedResult rt payload)
    createResult taskId
    Prog.catching (discardResult taskId) (fillResult taskId content)
  else .raise (.controlError (py "Invalid task_id."))

end Result

-- The functions that `process_one` calls, and its own system calls.
inductive TaskOp where
  | claimOne
  | appendAudit (event : Fields)
  | executeTask (task : Json) (taskId : PyStr)
  | atomicResult (taskId : PyStr) (payload : Fields)
  | sys (op : WorkerOp)

abbrev TaskOp.Res : TaskOp → Type
  | .claimOne => Option PyStr
  | .executeTask _ _ => TaskResult
  | .sys op => op.Res
  | _ => Unit

def body : (op : TaskOp) → Action op.Res
  | .claimOne => claimOne cfg
  | .appendAudit event =>
      (Audit.appendAudit cfg.rt cfg.pid cfg.auditLockPath (.obj event)).lift .audit fun _ b => b
  | .executeTask task taskId => executeTask cfg task taskId
  | .atomicResult taskId payload => atomicResult cfg.rt taskId payload
  | .sys op => perform op

abbrev Calls := Prog TaskOp TaskOp.Res PyExc

abbrev call (op : TaskOp) : Calls op.Res := Prog.perform op

abbrev sys (op : WorkerOp) : Calls op.Res := call (.sys op)

abbrev appendAudit (event : Fields) : Calls Unit := call (.appendAudit event)

section ProcessOne

variable (claimed : PyStr)

-- The `try` block up to the result.
def prepare : Calls TaskResult := do
  let now : UtcTime ← sys .utcNow
  appendAudit (claimedEvent cfg.workerId (taskIdOf claimed) now)
  let size : Nat ← sys (.statClaimed claimed)
  if maxTaskBytes < size then .raise (.controlError (py "Task document exceeds the 64 KiB limit."))
  else do
    let content : Bytes ← sys (.readClaimed claimed)
    let task ← Prog.ofExcept (readTask cfg.rt content)
    let envelope ← Prog.ofExcept (validateTaskEnvelope task (taskIdOf claimed))
    let now : UtcTime ← sys .utcNow
    appendAudit (startedEvent cfg.workerId (taskIdOf claimed) envelope now)
    call (.executeTask task (taskIdOf claimed))

-- The rest of the `try` block.
def deliver (result : TaskResult) : Calls Unit := do
  call (.atomicResult (taskIdOf claimed) result.fields)
  let now : UtcTime ← sys .utcNow
  appendAudit (completedEvent (taskIdOf claimed) result now)
  sys (.rename ⟨.processing, claimed⟩ ⟨.done, claimed⟩)

def complete : Calls Unit := do
  let result ← prepare cfg claimed
  deliver claimed result

-- The `finally` block.
def moveToFailed : Calls Unit :=
  Prog.catching (fun e => if e.isOSError then .ret () else .raise e)
    (sys (.rename ⟨.processing, claimed⟩ ⟨.failed, claimed⟩))

-- `except Exception`.
def recordFailure (e : PyExc) : Calls Unit := do
  let now : UtcTime ← sys .utcNow
  Prog.catching (fun _ => .ret ())
    (call (.atomicResult (taskIdOf claimed) (failureFields (taskIdOf claimed) now e)))
  Prog.finishing (moveToFailed claimed) do
    let now : UtcTime ← sys .utcNow
    appendAudit (failedEvent (taskIdOf claimed) e now)

def processOne : Calls Bool := do
  match ← call .claimOne with
  | none => return false
  | some claimed => do
      Prog.catching (recordFailure claimed) (complete cfg claimed)
      return true

end ProcessOne

end V91Core.Worker
