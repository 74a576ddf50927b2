import V91Core.Audit.Append
import V91Core.Python.Format
import V91Core.Python.TextFile

namespace V91Core.Worker

open V91Core.Python V91Core.Audit

abbrev Fields := List (PyStr × Json)

def entry (name : String) (value : Json) : PyStr × Json := (py name, value)

def label (name : String) (value : PyStr) : PyStr × Json := (py name, .str value)

def maxTaskBytes : Nat := 64 * 1024

def isTaskIdChar (c : CodePoint) : Bool :=
  c.isDigit || (0x41 ≤ c.val && c.val ≤ 0x5A) || (0x61 ≤ c.val && c.val ≤ 0x7A) || c = cp '_' || c = cp '-'

-- `TASK_ID_RE.fullmatch`.
def isTaskId (s : PyStr) : Bool := 1 ≤ s.length && s.length ≤ 80 && s.all isTaskIdChar

-- `SHA256_RE.fullmatch`.
def isSha256 (s : PyStr) : Bool :=
  s.length = 64 && s.all fun c => isHexChar c || (0x41 ≤ c.val && c.val ≤ 0x46)

-- `str.lower` of an ASCII text.
def lower (s : PyStr) : PyStr := s.map fun c => if 0x41 ≤ c.val ∧ c.val ≤ 0x5A then chr (c.val + 32) else c

-- `ALLOWED_ACTIONS`.
inductive TaskAction where
  | healthSnapshot
  | sha256File
  | verifySha256
deriving DecidableEq

def TaskAction.name : TaskAction → PyStr
  | .healthSnapshot => py "health_snapshot"
  | .sha256File => py "sha256_file"
  | .verifySha256 => py "verify_sha256"

def allowedAction : Option Json → Option TaskAction
  | some (.str name) => [.healthSnapshot, .sha256File, .verifySha256].find? fun action => action.name = name
  | _ => none

section Envelope

-- What `validate_task_envelope` returns.
structure Envelope where
  action : TaskAction
  purpose : PyStr
  expectedEffect : PyStr

def allowedFields : List PyStr :=
  [py "task_id", py "action", py "relative_path", py "expected_sha256", py "purpose", py "expected_effect"]

-- One round of the loop over `purpose` and `expected_effect`.
def checkText (fieldName : String) (value : Option Json) : Except PyExc PyStr :=
  let refused := PyExc.controlError
    (py fieldName ++ py " must be a non-empty string of at most 500 characters.")
  match value with
  | some (.str s) => if strip s = [] ∨ 500 < (strip s).length then .error refused else .ok (strip s)
  | _ => .error refused

def validateTaskEnvelope (task : Json) (taskId : PyStr) : Except PyExc Envelope :=
  match task with
  | .obj fields => do
      if fields.any fun f => f.1 ∉ allowedFields then
        .error (.controlError (py "Task contains unsupported fields."))
      if Json.lookup (py "task_id") fields ≠ some (.str taskId) ∨ isTaskId taskId = false then
        .error (.controlError (py "Task ID must match its filename and the permitted ID format."))
      match allowedAction (Json.lookup (py "action") fields) with
      | none => .error (.controlError (py "Unknown task action."))
      | some action => do
          let purpose ← checkText "purpose" (Json.lookup (py "purpose") fields)
          let expectedEffect ← checkText "expected_effect" (Json.lookup (py "expected_effect") fields)
          return ⟨action, purpose, expectedEffect⟩
  | _ => .error (.controlError (py "Task document must be a JSON object."))

-- `json.loads(claimed.read_text(encoding="utf-8"))`.
def readTask (rt : Runtime) (content : Bytes) : Except PyExc Json := do
  let text ← ofOption .unicodeDecode (decodedText content)
  loadsText rt text

end Envelope

section Result

-- A directory holds fewer files than a machine word counts.
abbrev FileCount := { n : Nat // n < 2 ^ 63 }

-- The seconds since the start, which are a number.
abbrev Uptime := { x : Float // Json.isFinite (roundFloat 3 x) = true }

-- What each action finds out.
inductive Finding where
  | health (workerId : PyStr) (uptime : Uptime) (pending processing : FileCount)
  | digest (relativePath sha256 : PyStr) (size : Nat)
  | verification (relativePath sha256 : PyStr) (size : Nat) (matchesExpected : Bool)

def fileFields (relativePath sha256 : PyStr) (size : Nat) : Fields :=
  [label "relative_path" relativePath, label "sha256" sha256, entry "size_bytes" (.int size),
    label "status" (py "COMPLETED")]

def Finding.fields : Finding → Fields
  | .health workerId uptime pending processing =>
      [label "status" (py "COMPLETED"), label "worker_id" workerId,
        entry "uptime_seconds" (.float (roundFloat 3 uptime.val)), entry "pending_tasks" (.int pending.val),
        entry "processing_tasks" (.int processing.val)]
  | .digest relativePath sha256 size => fileFields relativePath sha256 size
  | .verification relativePath sha256 size matchesExpected =>
      fileFields relativePath sha256 size ++ [entry "matches_expected" (.bool matchesExpected),
        label "verification_status" (if matchesExpected then py "MATCH" else py "MISMATCH")]

-- What `execute_task` returns.
structure TaskResult where
  taskId : PyStr
  envelope : Envelope
  timestamp : UtcTime
  finding : Finding

namespace TaskResult

def fields (r : TaskResult) : Fields :=
  [label "task_id" r.taskId, label "action" r.envelope.action.name, label "purpose" (strip r.envelope.purpose),
    label "expected_effect" (strip r.envelope.expectedEffect), label "timestamp_utc" r.timestamp.val,
    label "source" (py "LOCAL_WORKER"), label "evidence_status" (py "OBSERVED_LOCAL_STATE")] ++ r.finding.fields

-- `result[key]`, for keys that every result has.
def get (r : TaskResult) (key : String) : Json := (Json.lookup (py key) r.fields).getD .null

def summaryKeys : List PyStr :=
  [py "sha256", py "size_bytes", py "matches_expected", py "verification_status", py "evidence_status",
    py "purpose", py "expected_effect"]

def summary (r : TaskResult) : Fields :=
  summaryKeys.filterMap fun key => (Json.lookup key r.fields).map fun value => (key, value)

theorem lookup_status (r : TaskResult) :
    Json.lookup (py "status") r.fields = some (.str (py "COMPLETED")) := by
  obtain ⟨taskId, envelope, timestamp, finding⟩ := r
  cases finding with
  | health workerId uptime pending processing => rfl
  | digest relativePath sha256 size => rfl
  | verification relativePath sha256 size matchesExpected => rfl

end TaskResult

def failureFields (taskId : PyStr) (now : UtcTime) (e : PyExc) : Fields :=
  [label "task_id" taskId, label "timestamp_utc" now.val, label "source" (py "LOCAL_WORKER"),
    label "status" (py "FAILED"), label "error_type" e.typeName,
    label "detail" (match e with
      | .controlError msg => msg
      | _ => py "Task failed; internal details withheld.")]

-- `sort_keys=True, allow_nan=False`. The indentation is written out below.
def resultStyle : Json.Style := ⟨true, true, true, false⟩

-- `json.dumps(payload, ..., indent=2) + "\n"` of a dict that holds no containers.
def encodedResult (rt : Runtime) (payload : Fields) : Except PyExc Bytes := do
  let members ← (Json.sortKeys payload).mapM fun f => do
    let value ← dumps rt resultStyle f.2
    return py "\n  " ++ Json.encodeString true f.1 ++ py ": " ++ value
  encodeUtf8 (cp '{' :: (Json.joinWith (py ",") members ++ [cp '\n', cp '}', cp '\n']))

end Result

section Events

def claimedEvent (workerId taskId : PyStr) (now : UtcTime) : Fields :=
  [label "timestamp_utc" now.val, label "phase" (py "TASK_CLAIMED"), label "task_id" taskId,
    label "worker_id" workerId, label "source" (py "LOCAL_QUEUE"), label "status" (py "CLAIMED")]

def startedEvent (workerId taskId : PyStr) (e : Envelope) (now : UtcTime) : Fields :=
  [label "timestamp_utc" now.val, label "phase" (py "TASK_STARTED"), label "task_id" taskId,
    label "worker_id" workerId, label "source" (py "LOCAL_WORKER"),
    label "status" (py "AUTHORIZED_LOCAL_TASK"), label "action" e.action.name, label "purpose" e.purpose,
    label "expected_effect" e.expectedEffect]

def resultName (taskId : PyStr) : PyStr := taskId ++ py ".json"

def completedEvent (taskId : PyStr) (r : TaskResult) (now : UtcTime) : Fields :=
  [label "timestamp_utc" now.val, label "phase" (py "TASK_COMPLETED"), label "task_id" taskId,
    label "result_file" (resultName taskId), label "source" (py "LOCAL_WORKER"),
    entry "status" (r.get "status"), entry "action" (r.get "action"), entry "result_summary" (.obj r.summary)]

def failedEvent (taskId : PyStr) (e : PyExc) (now : UtcTime) : Fields :=
  [label "timestamp_utc" now.val, label "phase" (py "TASK_FAILED"), label "task_id" taskId,
    label "source" (py "LOCAL_WORKER"), label "status" (py "FAILED"), label "error_type" e.typeName]

end Events

end V91Core.Worker
