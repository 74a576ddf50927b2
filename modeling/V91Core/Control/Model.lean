import V91Core.Audit.Append
import V91Core.Python.Format
import V91Core.Python.TextFile

namespace V91Core.Control

open V91Core.Python V91Core.Audit

def allowedService : PyStr := py "worker"

def minReplicas : Int := 1

def maxReplicas : Int := 3

def scaleUpCpu : Float := 75.0

def scaleUpMemory : Float := 80.0

def scaleDownCpu : Float := 20.0

def scaleDownMemory : Float := 50.0

def lowSamplesRequired : Nat := 3

-- What `parse_percent` returns.
abbrev Percent := { x : Float // Json.isFinite x = true ∧ (0.0 : Float) ≤ x }

-- An entry of `observed`.
structure Container where
  name : PyStr
  state : PyStr
  health : PyStr
  cpuPercent : Percent
  memoryPercent : Percent

-- The first container and the others: `collect_snapshot` refuses an empty list.
structure Snapshot where
  timestamp : UtcTime
  project : PyStr
  first : Container
  others : List Container

-- `max`.
def maxOf (x : Float) (rest : List Float) : Float := rest.foldl (fun m y => if m < y then y else m) x

namespace Snapshot

def containers (s : Snapshot) : List Container := s.first :: s.others

def replicas (s : Snapshot) : Int := s.containers.length

def running (s : Snapshot) : Int := s.containers.countP fun c => c.state = py "running"

def maxCpuPercent (s : Snapshot) : Float :=
  maxOf s.first.cpuPercent.val (s.others.map fun c => c.cpuPercent.val)

def maxMemoryPercent (s : Snapshot) : Float :=
  maxOf s.first.memoryPercent.val (s.others.map fun c => c.memoryPercent.val)

end Snapshot

def field (name : String) (value : Json) : PyStr × Json := (py name, value)

def text (name : String) (value : PyStr) : PyStr × Json := (py name, .str value)

def Container.json (c : Container) : Json :=
  .obj [text "name" c.name, text "state" c.state, text "health" c.health,
    field "cpu_percent" (.float c.cpuPercent.val), field "memory_percent" (.float c.memoryPercent.val)]

def Snapshot.json (s : Snapshot) : Json :=
  .obj [text "timestamp_utc" s.timestamp.val, text "source" (py "DOCKER_LIVE"), text "project" s.project,
    text "service" allowedService, field "replicas" (.int s.replicas), field "running" (.int s.running),
    field "max_cpu_percent" (.float s.maxCpuPercent), field "max_memory_percent" (.float s.maxMemoryPercent),
    field "containers" (.arr (s.containers.map Container.json))]

inductive ScaleAction where
  | scaleUpWorkers
  | scaleDownWorkers
deriving DecidableEq

def ScaleAction.name : ScaleAction → PyStr
  | .scaleUpWorkers => py "scale_up_workers"
  | .scaleDownWorkers => py "scale_down_workers"

-- `CPU {cpu:.1f}%, memory {memory:.1f}%`.
def usageText (s : Snapshot) : PyStr :=
  py "CPU " ++ formatFixed 1 s.maxCpuPercent ++ py "%, memory " ++ formatFixed 1 s.maxMemoryPercent ++ py "%"

-- The conditions of `decide`.
def overloaded (s : Snapshot) : Bool := s.maxCpuPercent ≥ scaleUpCpu || s.maxMemoryPercent ≥ scaleUpMemory

def lowUse (s : Snapshot) : Bool := s.maxCpuPercent ≤ scaleDownCpu && s.maxMemoryPercent ≤ scaleDownMemory

-- The action, the next low-sample count and the reason.
def decide (s : Snapshot) (lowSamples : Nat) : Option ScaleAction × Nat × PyStr :=
  if s.replicas < minReplicas ∨ s.replicas > maxReplicas then
    (none, 0, py "Replica count is outside configured safety bounds.")
  else if overloaded s then
    if s.replicas ≥ maxReplicas then
      (none, 0, py "Scale-up threshold met (" ++ usageText s ++ py "), but the configured maximum of " ++
        intText maxReplicas ++ py " replicas is already reached.")
    else
      (some .scaleUpWorkers, 0, py "Live Docker metrics exceed a scale-up threshold (" ++ usageText s ++
        py "); target " ++ intText (s.replicas + 1) ++ py " replicas.")
  else if lowUse s then
    if s.replicas ≤ minReplicas then
      (none, 0, py "Low resource use observed, but the configured minimum of " ++ intText minReplicas ++
        py " replica is reached; no capacity is removed.")
    else
      let nextCount := min (lowSamples + 1) lowSamplesRequired
      if nextCount ≥ lowSamplesRequired then
        (some .scaleDownWorkers, 0, py "Low CPU (" ++ formatFixed 1 s.maxCpuPercent ++ py "%) and memory (" ++
          formatFixed 1 s.maxMemoryPercent ++ py "%) persisted for " ++ natText lowSamplesRequired ++
          py " samples; target " ++ intText (s.replicas - 1) ++ py " replicas.")
      else
        (none, nextCount, py "Low resource use sample " ++ natText nextCount ++ py "/" ++
          natText lowSamplesRequired ++ py "; waiting to avoid scaling oscillation.")
  else
    (none, 0, py "No scaling threshold met (" ++ usageText s ++ py ", replicas " ++ intText s.replicas ++ py ").")

-- What `decide` may decide, and on which grounds.
inductive Decision (s : Snapshot) (lowSamples : Nat) : Option ScaleAction → Nat → Prop
  | idle : Decision s lowSamples none 0
  | up (hmin : minReplicas ≤ s.replicas) (hmax : s.replicas < maxReplicas) :
      Decision s lowSamples (some .scaleUpWorkers) 0
  | down (hlow : lowUse s = true) (hmin : minReplicas < s.replicas) (hmax : s.replicas ≤ maxReplicas)
      (hcount : lowSamplesRequired ≤ lowSamples + 1) : Decision s lowSamples (some .scaleDownWorkers) 0
  | wait (hlow : lowUse s = true) (hmin : minReplicas < s.replicas)
      (hcount : lowSamples + 1 < lowSamplesRequired) : Decision s lowSamples none (lowSamples + 1)

theorem decide_decision (s : Snapshot) (lowSamples : Nat) :
    Decision s lowSamples (decide s lowSamples).1 (decide s lowSamples).2.1 := by
  unfold decide
  by_cases hbounds : s.replicas < minReplicas ∨ s.replicas > maxReplicas
  · rw [if_pos hbounds]
    exact .idle
  rw [if_neg hbounds]
  by_cases hover : overloaded s = true
  · rw [if_pos hover]
    by_cases hmax : s.replicas ≥ maxReplicas
    · rw [if_pos hmax]
      exact .idle
    · rw [if_neg hmax]
      exact .up (by omega) (by omega)
  rw [if_neg hover]
  by_cases hlow : lowUse s = true
  · rw [if_pos hlow]
    by_cases hmin : s.replicas ≤ minReplicas
    · rw [if_pos hmin]
      exact .idle
    rw [if_neg hmin]
    by_cases hcount : lowSamples + 1 < lowSamplesRequired
    · have hnext : min (lowSamples + 1) lowSamplesRequired = lowSamples + 1 := by omega
      simp only [hnext, if_neg (show ¬ lowSamples + 1 ≥ lowSamplesRequired by omega)]
      exact .wait hlow (by omega) hcount
    · have hnext : min (lowSamples + 1) lowSamplesRequired = lowSamplesRequired := by omega
      simp only [hnext, if_pos (show lowSamplesRequired ≥ lowSamplesRequired by omega)]
      exact .down hlow (by omega) (by omega) (by omega)
  · rw [if_neg hlow]
    exact .idle

-- `dict.update`.
def update (fields more : List (PyStr × Json)) : List (PyStr × Json) :=
  more.foldl (fun fields f => Json.insert f.1 f.2 fields) fields

def effectStatus (before : Snapshot) (cpuDelta memoryDelta : Float) : ScaleAction → PyStr
  | .scaleUpWorkers =>
      let cpuTriggered := before.maxCpuPercent ≥ scaleUpCpu
      let memoryTriggered := before.maxMemoryPercent ≥ scaleUpMemory
      if (cpuTriggered ∧ cpuDelta ≤ -1.0) ∨ (memoryTriggered ∧ memoryDelta ≤ -1.0) then
        py "MEASURED_IMPROVEMENT"
      else py "EFFECT_NOT_CONFIRMED"
  | .scaleDownWorkers => py "EFFICIENCY_EFFECT_NOT_ASSESSED"

def measureEffect (before after : Snapshot) (action : ScaleAction) : List (PyStr × Json) :=
  let cpuDelta := roundFloat 2 (after.maxCpuPercent - before.maxCpuPercent)
  let memoryDelta := roundFloat 2 (after.maxMemoryPercent - before.maxMemoryPercent)
  [field "cpu_delta_percentage_points" (.float cpuDelta),
    field "memory_delta_percentage_points" (.float memoryDelta),
    field "replica_delta" (.int (after.replicas - before.replicas)),
    text "effect_status" (effectStatus before cpuDelta memoryDelta action)]

section StateFile

-- `sort_keys=True` and the defaults.
def stateStyle : Json.Style := ⟨true, true, true, true⟩

def statePayload (lowSamples : Nat) (now : UtcTime) : Json :=
  .obj [field "low_resource_samples" (.int lowSamples), text "updated_at_utc" now.val]

-- The file that `write_state` puts in place.
def stateContent (rt : Runtime) (lowSamples : Nat) (now : UtcTime) : Except PyExc Bytes := do
  let payload ← dumps rt stateStyle (statePayload lowSamples now)
  encodeUtf8 (payload ++ [cp '\n'])

-- The `try` block of `read_low_sample_count` on what `read_text` decodes.
def lowSampleCount (rt : Runtime) (content : Bytes) : Except PyExc Nat := do
  let text ← ofOption .unicodeDecode (decodedText content)
  match ← loadsText rt text with
  | .obj data =>
      match (Json.lookup (py "low_resource_samples") data).getD (.int 0) with
      | .int count => return if count < 0 then 0 else min count.toNat lowSamplesRequired
      | _ => return 0
  | _ => .error .attributeError

-- `except (OSError, json.JSONDecodeError)`.
def corruptState (e : PyExc) : Bool :=
  match e with
  | .jsonDecode _ _ => true
  | _ => e.isOSError

end StateFile

section Events

-- A value that was not observed.
def unknown : Json := .obj [field "value" .null, text "status" (py "UNKNOWN")]

def noDataEvent (eventId : PyStr) (now : UtcTime) (project : PyStr) (e : PyExc) : List (PyStr × Json) :=
  [text "event_id" eventId, text "timestamp_utc" now.val, text "phase" (py "OBSERVATION"),
    text "source" (py "OBSERVATION_ATTEMPT"), text "project" project, text "service" allowedService,
    field "observed" (.obj [field "cpu_percent" unknown, field "memory_percent" unknown,
      field "replicas" unknown, field "running" unknown]),
    text "action" (py "NO_ACTION"), text "authorization" (py "NOT_USED"),
    text "status" (py "NO_DATA_AVAILABLE"), text "error_type" e.typeName,
    text "reason" (py "Required live Docker state or resource metrics could not be verified.")]

def target (s : Snapshot) : Option ScaleAction → Int
  | some .scaleUpWorkers => s.replicas + 1
  | some .scaleDownWorkers => s.replicas - 1
  | none => s.replicas

def initialStatus (allowActions allowScaleDown : Bool) (action : Option ScaleAction) : PyStr :=
  if action = some .scaleDownWorkers ∧ allowScaleDown = false ∧ allowActions = true then
    py "PROPOSED_SCALE_DOWN_REQUIRES_OPT_IN"
  else if action.isSome ∧ allowActions = false then py "PROPOSED_NOT_EXECUTED" else py "NO_ACTION"

def expectedEffect : Option ScaleAction → PyStr
  | some .scaleUpWorkers => py "Increase worker capacity by one replica."
  | some .scaleDownWorkers => py "Reduce one worker replica after sustained low resource use."
  | none => py "No infrastructure change."

def decisionEvent (eventId : PyStr) (now : UtcTime) (project : PyStr) (s : Snapshot)
    (action : Option ScaleAction) (reason : PyStr) (allowActions allowScaleDown : Bool) :
    List (PyStr × Json) :=
  [text "event_id" eventId, text "timestamp_utc" now.val, text "phase" (py "DECISION"),
    text "source" (py "DOCKER_LIVE"), text "project" project, text "service" allowedService,
    field "observed" s.json, text "action" (action.elim (py "NO_ACTION") ScaleAction.name),
    text "reason" reason, field "before_replicas" (.int s.replicas),
    field "target_replicas" (.int (target s action)),
    text "authorization" (if allowActions then py "ENABLED" else py "NOT_ENABLED"),
    text "expected_effect" (expectedEffect action),
    text "rollback_plan" (py "Restore worker replica count to " ++ intText s.replicas ++
      py " if post-check fails."),
    text "status" (initialStatus allowActions allowScaleDown action)]

def verifyEvent (eventId : PyStr) (now : UtcTime) (s post : Snapshot) (target : Int)
    (effect : List (PyStr × Json)) : List (PyStr × Json) :=
  update [text "event_id" eventId, text "timestamp_utc" now.val, text "phase" (py "VERIFY"),
    text "source" (py "DOCKER_LIVE"), field "before" s.json, field "target_replicas" (.int target),
    field "after" post.json, text "action_status" (py "ACTION_VERIFIED")] effect

def rollbackEvent (eventId : PyStr) (now : UtcTime) (s : Snapshot) (target : Int) (status : PyStr)
    (e : PyExc) (detail : PyStr) : List (PyStr × Json) :=
  [text "event_id" eventId, text "timestamp_utc" now.val, text "phase" (py "ROLLBACK"),
    text "source" (py "DOCKER_LIVE"), field "before_replicas" (.int s.replicas),
    field "attempted_replicas" (.int target), text "status" status, text "failure_type" e.typeName,
    text "rollback_detail" detail]

end Events

end V91Core.Control
