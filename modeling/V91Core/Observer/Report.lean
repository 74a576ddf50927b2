import V91Core.Effect.Pool
import V91Core.Json.Indent
import V91Core.Observer.Snapshot
import V91Core.Worker.Process

namespace V91Core.Observer

open V91Core.Python V91Core.Effect V91Core.Audit V91Core.Worker

section Content

def countJson : Option Nat → Json
  | some n => .int n
  | none => .null

def Status.value : Status → PyStr
  | .observed => py "OBSERVED"
  | .pendingWitness => py "PENDING_WITNESS"

def EvidenceStatus.value : EvidenceStatus → PyStr
  | .observedLocalState => py "OBSERVED_LOCAL_STATE"
  | .incompleteOrCorrupt => py "INCOMPLETE_OR_CORRUPT"

def LastEvent.fields (event : LastEvent) : Fields :=
  [(py "timestamp_utc", event.timestampUtc), (py "phase", event.phase), (py "status", event.status),
    (py "task_id", event.taskId), (py "action", event.action)]

def lastEventJson : Option LastEvent → Json
  | some event => .obj event.fields
  | none => .null

def Summary.fields (summary : Summary) : Fields :=
  [(py "events", .int summary.events), (py "parse_errors", .int summary.parseErrors),
    (py "last_event", lastEventJson summary.lastEvent)]

def QueueCounts.fields (counts : QueueCounts) : Fields :=
  [(py "pending", countJson counts.pending), (py "processing", countJson counts.processing),
    (py "done", countJson counts.done), (py "failed", countJson counts.failed)]

def Snapshot.fields (data : Snapshot) : Fields :=
  [(py "timestamp_utc", .str data.timestampUtc), (py "source", .str (py "LOCAL_FILESYSTEM")),
    (py "status", .str data.status.value), (py "evidence_status", .str data.evidenceStatus.value),
    (py "queue_counts", .obj data.queueCounts.fields), (py "audit", .obj data.audit.fields),
    (py "note", .str (py "This is local queue/log state, not proof of model correctness or production availability."))]

-- `sort_keys=True, indent=2, allow_nan=False`.
def reportStyle : Json.Style := ⟨true, true, true, false⟩

-- What `atomic_write` puts into the file.
def reportContent (rt : Runtime) (data : Snapshot) : Except PyExc Bytes := do
  let text ← (Json.encodeLines reportStyle rt.nesting 0 (.obj data.fields)).mapError PyData.encodeFailure
  encodeUtf8 (text ++ [cp '\n'])

-- `json.dumps(data, sort_keys=True)`.
def printStyle : Json.Style := ⟨true, true, true, true⟩

end Content

section Operations

-- What the observer asks of the operating system. The text that is written may turn out to be
-- incomplete, when the encoder raises.
inductive ObserverOp where
  | boot
  | makeLayout
  | stopped
  | countTasks (dir : Dir)
  | readLog
  | utcNow
  | makeParent
  | openTemp
  | writeTemp (content : Except PyExc Bytes)
  | syncTemp
  | replaceReport
  | print (line : PyStr)
  | sleep

abbrev ObserverOp.Res : ObserverOp → Type
  | .stopped => Bool
  | .countTasks _ => Nat
  | .readLog => LogRead
  | .utcNow => UtcTime
  | _ => Unit

abbrev Action := Prog ObserverOp ObserverOp.Res PyExc

abbrev perform (op : ObserverOp) : Action op.Res := Prog.perform op

structure Config where
  rt : Runtime
  pollSeconds : Int

variable (cfg : Config)

-- What `count_tasks` makes of the listing of a directory.
def countOf : Except PyExc Nat → Except PyExc (Option Nat)
  | .ok n => .ok (some n)
  | .error e => if e = .fileNotFound then .ok (some 0) else if e.isOSError then .ok none else .error e

def countTasks (dir : Dir) : Action (Option Nat) := do
  let listing ← (perform (.countTasks dir)).attempt
  Prog.ofExcept (countOf listing)

-- The log is read two frames further down than `main` prints.
def takeSnapshot : Action Snapshot := do
  let pending ← countTasks .pending
  let processing ← countTasks .processing
  let done ← countTasks .done
  let failed ← countTasks .failed
  let log ← (perform .readLog).attempt
  let now ← perform .utcNow
  Prog.ofExcept (snapshot (cfg.rt.below 2) now.val ⟨pending, processing, done, failed⟩ log)

def atomicWrite (data : Snapshot) : Action Unit := do
  perform .makeParent
  perform .openTemp
  perform (.writeTemp (reportContent cfg.rt data))
  perform .syncTemp
  perform .replaceReport

def iteration : Action Unit := do
  let data ← takeSnapshot cfg
  atomicWrite cfg data
  let line ← Prog.ofExcept (dumps cfg.rt printStyle (.obj data.fields))
  perform (.print line)
  perform .sleep

-- The loop of `main`.
def observe : Nat → Action Unit
  | 0 => return ()
  | rounds + 1 => do
      let stopped ← perform .stopped
      if stopped then return ()
      else
        iteration cfg
        observe rounds

def main (rounds : Nat) : Action Nat := do
  if cfg.pollSeconds < 5 ∨ 3600 < cfg.pollSeconds then return 2
  else
    perform .makeLayout
    observe cfg rounds
    return 0

-- A process that runs the observer.
def life (rounds : Nat) : Action Nat := do
  perform .boot
  main cfg rounds

end Operations

section Files

-- The files that the observer writes, and what it has been told so far. `live` counts the
-- processes that have started: the next one starts when the one before has ended or was killed.
structure Shared where
  live : Nat
  report : Option Bytes
  temp : Option Bytes
  logs : List (Except PyExc LogRead)
  counted : List (Dir × Except PyExc Nat)

def ObserverOp.quiet : ObserverOp → Bool
  | .makeLayout | .stopped | .utcNow | .makeParent | .openTemp | .syncTemp | .replaceReport | .print _ | .sleep => true
  | _ => false

-- What an operation may do. A failure to open or to replace a file changes nothing, and one that
-- stops the writing may leave anything in the temporary file.
inductive Acts : Shared → (op : ObserverOp) → Except PyExc op.Res → Shared → Prop
  | countTasks (s : Shared) (dir : Dir) (r : Except PyExc Nat) :
      Acts s (.countTasks dir) r { s with counted := (dir, r) :: s.counted }
  | readLog (s : Shared) (r : Except PyExc LogRead) : Acts s .readLog r { s with logs := r :: s.logs }
  | openTemp (s : Shared) : Acts s .openTemp (.ok ()) { s with temp := some [] }
  | writeTemp (s : Shared) (content : Bytes) :
      Acts s (.writeTemp (.ok content)) (.ok ()) { s with temp := some content }
  | tornTemp (s : Shared) (content : Except PyExc Bytes) (e : PyExc) (torn : Bytes) :
      Acts s (.writeTemp content) (.error e) { s with temp := some torn }
  | replaceReport (s : Shared) (content : Bytes) (htemp : s.temp = some content) :
      Acts s .replaceReport (.ok ()) { s with report := some content, temp := none }
  | quiet (s : Shared) (op : ObserverOp) (r : Except PyExc op.Res) (hop : op.quiet = true)
      (hr : op = .openTemp ∨ op = .replaceReport → ∃ e, r = .error e) : Acts s op r s

inductive Exec (i : Nat) : Shared → (op : ObserverOp) → Except PyExc op.Res → Shared → Prop
  | boot (s : Shared) (hnext : s.live = i) : Exec i s .boot (.ok ()) { s with live := i + 1 }
  | acts (s : Shared) (op : ObserverOp) (r : Except PyExc op.Res) (s' : Shared) (hlive : s.live = i + 1)
      (h : Acts s op r s') : Exec i s op r s'

def system : System Nat Shared ObserverOp ObserverOp.Res PyExc where
  exec := Exec
  env s s' := s' = s

abbrev Observers := Pool Nat Shared ObserverOp ObserverOp.Res PyExc Nat

def start (cfg : Config) (rounds : Nat → Nat) (initial : Option Bytes) : Observers :=
  ⟨⟨0, initial, none, [], []⟩, fun i => life cfg (rounds i)⟩

end Files

end V91Core.Observer
