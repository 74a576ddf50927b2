import V91Core.Effect.Eval
import V91Core.Python.Data
import V91Core.Python.TextFile

namespace V91Core.Observer

open V91Core.Python V91Core.Effect

abbrev Fields := List (PyStr × Json)

section Model

structure LastEvent where
  timestampUtc : Json
  phase : Json
  status : Json
  taskId : Json
  action : Json

def get (key : String) (event : Fields) : Json := (Json.lookup (py key) event).getD .null

def LastEvent.ofEvent (event : Fields) : LastEvent where
  timestampUtc := get "timestamp_utc" event
  phase := get "phase" event
  status := if (PyData.ofJson (get "status" event)).truthy then get "status" event else get "action_status" event
  taskId := get "task_id" event
  action := get "action" event

structure Summary where
  events : Nat
  parseErrors : Nat
  lastEvent : Option LastEvent

def Summary.empty : Summary := ⟨0, 0, none⟩

variable (rt : Runtime)

-- The inner `try` block. A root that is no object raises `ValueError`, too.
def readEvent (line : PyStr) : Except PyExc (Option Fields) :=
  match loadsText rt line with
  | .ok (.obj event) => .ok (some event)
  | .ok _ => .ok none
  | .error e => if e.isValueError then .ok none else .error e

def inspectLine (summary : Summary) (line : PyStr) : Except PyExc Summary :=
  if strip line = [] then .ok summary
  else do
    match ← readEvent rt line with
    | some event => .ok { summary with events := summary.events + 1, lastEvent := some (.ofEvent event) }
    | none => .ok { summary with parseErrors := summary.parseErrors + 1 }

def inspectLines : Summary → List PyStr → Except PyExc Summary
  | summary, [] => .ok summary
  | summary, line :: lines => do
      let summary ← inspectLine rt summary line
      inspectLines summary lines

-- The lines that are complete when a read fails after these bytes. A carriage return at
-- their end is kept back.
def readInterrupted (content : Bytes) : LineStream :=
  match decodeStart content.length content with
  | some text =>
      let text := if text.getLast? = some (cp '\r') then text.dropLast else text
      ⟨(splitLines (universalNewlines false text)).filter isTerminated, false⟩
  | none => readLines content

-- What the log gives once it is open: its bytes, to the end or until a read fails.
structure LogRead where
  content : Bytes
  failure : Option PyExc

def LogRead.stream (read : LogRead) : LineStream :=
  if read.failure.isSome then readInterrupted read.content else readLines read.content

-- `except FileNotFoundError` and `except OSError`. What has been counted stays.
def logFailure (summary : Summary) (e : PyExc) : Except PyExc Summary :=
  if e = .fileNotFound then .ok summary
  else if e.isOSError then .ok { summary with parseErrors := summary.parseErrors + 1 }
  else .error e

def inspectRead (read : LogRead) : Except PyExc Summary := do
  let summary ← inspectLines rt .empty read.stream.lines
  if read.stream.error then .error .unicodeDecode
  else match read.failure with
    | none => .ok summary
    | some e => logFailure summary e

-- `file` is what opening and reading the log gives.
def inspectActionLog (file : Except PyExc LogRead) : Except PyExc Summary :=
  match file with
  | .ok read => inspectRead rt read
  | .error e => logFailure .empty e

-- What `count_tasks` finds in the directories of the queue.
structure QueueCounts where
  pending : Option Nat
  processing : Option Nat
  done : Option Nat
  failed : Option Nat

def QueueCounts.known (counts : QueueCounts) : Bool :=
  counts.pending.isSome && counts.processing.isSome && counts.done.isSome && counts.failed.isSome

inductive Status where
  | observed
  | pendingWitness
deriving DecidableEq

inductive EvidenceStatus where
  | observedLocalState
  | incompleteOrCorrupt
deriving DecidableEq

structure Snapshot where
  timestampUtc : PyStr
  status : Status
  evidenceStatus : EvidenceStatus
  queueCounts : QueueCounts
  audit : Summary

-- `rt` is the interpreter in the `inspect_action_log` that `snapshot` calls.
def snapshot (now : PyStr) (counts : QueueCounts) (file : Except PyExc LogRead) : Except PyExc Snapshot := do
  let audit ← inspectActionLog rt file
  let status := if counts.known && audit.parseErrors = 0 then Status.observed else .pendingWitness
  .ok ⟨now, status, if status = .observed then .observedLocalState else .incompleteOrCorrupt, counts, audit⟩

end Model

section Inspection

variable (rt : Runtime)

def parsed (line : PyStr) : Option Fields :=
  match loadsText rt line with
  | .ok (.obj event) => some event
  | _ => none

def nonBlank (lines : List PyStr) : List PyStr := lines.filter fun line => strip line ≠ []

def objects (lines : List PyStr) : List Fields := (nonBlank lines).filterMap (parsed rt)

theorem readEvent_eq (line : PyStr) :
    readEvent rt line = if loadsText rt line = .error .recursionError then .error .recursionError
      else .ok (parsed rt line) := by
  unfold readEvent parsed
  cases h : loadsText rt line with
  | ok j =>
      rw [if_neg nofun]
      cases j <;> rfl
  | error e =>
      unfold loadsText at h
      split at h
      · cases h
      · obtain rfl := Except.error.inj h
        rw [if_neg (by simp)]
        rfl
      · obtain rfl := Except.error.inj h
        rw [if_neg (by simp)]
        rfl
      · obtain rfl := Except.error.inj h
        rw [if_pos rfl]
        rfl
      · obtain rfl := Except.error.inj h
        rw [if_pos rfl]
        rfl

-- What the lines add to a summary.
def Summary.add (summary : Summary) (lines : List PyStr) : Summary where
  events := summary.events + (objects rt lines).length
  parseErrors := summary.parseErrors + (nonBlank lines).countP fun line => (parsed rt line).isNone
  lastEvent := ((objects rt lines).getLast?.map LastEvent.ofEvent).or summary.lastEvent

-- No line is nested more deeply than the parser goes.
def Shallow (lines : List PyStr) : Prop :=
  ∀ line ∈ lines, strip line ≠ [] → loadsText rt line ≠ .error .recursionError

theorem Summary.add_append (summary : Summary) (first rest : List PyStr) :
    summary.add rt (first ++ rest) = (summary.add rt first).add rt rest := by
  have hnonBlank : nonBlank (first ++ rest) = nonBlank first ++ nonBlank rest := List.filter_append ..
  have hobjects : objects rt (first ++ rest) = objects rt first ++ objects rt rest := by
    unfold objects
    rw [hnonBlank, List.filterMap_append]
  unfold Summary.add
  rw [hobjects, hnonBlank, List.length_append, List.countP_append, List.getLast?_append, ← Nat.add_assoc,
    ← Nat.add_assoc]
  cases (objects rt rest).getLast? <;> rfl

theorem inspectLine_eq (summary : Summary) (line : PyStr) :
    inspectLine rt summary line = if strip line ≠ [] ∧ loadsText rt line = .error .recursionError then
      .error .recursionError else .ok (summary.add rt [line]) := by
  unfold inspectLine
  by_cases hblank : strip line = []
  · have hnone : nonBlank [line] = [] := List.filter_cons_of_neg (by simp [hblank])
    have hadd : summary.add rt [line] = summary := by
      unfold Summary.add objects
      rw [hnone]
      rfl
    rw [if_pos hblank, if_neg (fun h => h.1 hblank), hadd]
  have hone : nonBlank [line] = [line] := List.filter_cons_of_pos (by simp [hblank])
  rw [if_neg hblank, readEvent_eq]
  by_cases hdeep : loadsText rt line = .error .recursionError
  · rw [if_pos hdeep, if_pos ⟨hblank, hdeep⟩, error_bind]
  rw [if_neg hdeep, if_neg (fun h => hdeep h.2), ok_bind]
  unfold Summary.add objects
  rw [hone]
  cases hparsed : parsed rt line with
  | none => simp [hparsed]
  | some event => simp [hparsed]

theorem inspectLines_eq (summary : Summary) (lines : List PyStr) (h : Shallow rt lines) :
    inspectLines rt summary lines = .ok (summary.add rt lines) := by
  induction lines generalizing summary with
  | nil => rfl
  | cons line lines ih =>
      have hline : ¬ (strip line ≠ [] ∧ loadsText rt line = .error .recursionError) :=
        fun hdeep => h line List.mem_cons_self hdeep.1 hdeep.2
      have hlines : Shallow rt lines := fun l hl => h l (List.mem_cons_of_mem _ hl)
      rw [inspectLines, inspectLine_eq, if_neg hline, ok_bind, ih _ hlines, ← Summary.add_append]
      rfl

theorem shallow_of_inspectLines (summary s : Summary) (lines : List PyStr)
    (h : inspectLines rt summary lines = .ok s) : Shallow rt lines := by
  induction lines generalizing summary with
  | nil =>
      intro line hline
      cases hline
  | cons line lines ih =>
      obtain ⟨next, hnext, hrest⟩ := (bind_eq_ok _ _ _).mp h
      rw [inspectLine_eq] at hnext
      split at hnext
      · cases hnext
      next hline =>
        intro l hl hblank hdeep
        rcases List.mem_cons.mp hl with rfl | hl
        · exact hline ⟨hblank, hdeep⟩
        · exact ih next hrest l hl hblank hdeep

-- The log can be read: it is UTF-8, and no line exhausts the parser.
def Readable (content : Bytes) : Prop :=
  (readLines content).error = false ∧ Shallow rt (readLines content).lines

theorem inspectRead_eq_ok (content : Bytes) (s : Summary) :
    inspectRead rt ⟨content, none⟩ = .ok s ↔
      Readable rt content ∧ s = Summary.empty.add rt (readLines content).lines := by
  have hread : inspectRead rt ⟨content, none⟩ = (inspectLines rt .empty (readLines content).lines >>= fun summary =>
      if (readLines content).error then .error .unicodeDecode else .ok summary) := rfl
  rw [hread]
  unfold Readable
  constructor
  · intro h
    obtain ⟨summary, hlines, hend⟩ := (bind_eq_ok _ _ _).mp h
    have hshallow := shallow_of_inspectLines rt _ _ _ hlines
    rw [inspectLines_eq rt _ _ hshallow] at hlines
    obtain rfl := Except.ok.inj hlines
    split at hend
    · cases hend
    next herror => exact ⟨⟨Bool.eq_false_iff.mpr herror, hshallow⟩, (Except.ok.inj hend).symm⟩
  · rintro ⟨⟨herror, hshallow⟩, rfl⟩
    rw [inspectLines_eq rt _ _ hshallow, ok_bind, herror]
    rfl

-- What a snapshot says about the lines of the log.
structure Reports (lines : List PyStr) (data : Snapshot) : Prop where
  events : data.audit.events = (objects rt lines).length
  lastEvent : data.audit.lastEvent = (objects rt lines).getLast?.map LastEvent.ofEvent
  observed : data.status = .observed → ∀ line ∈ nonBlank lines, (parsed rt line).isSome

theorem snapshot_reports (now : PyStr) (counts : QueueCounts) (content : Bytes) (data : Snapshot)
    (h : snapshot rt now counts (.ok ⟨content, none⟩) = .ok data) : Reports rt (readLines content).lines data := by
  obtain ⟨audit, haudit, hdata⟩ := (bind_eq_ok _ _ _).mp h
  obtain ⟨-, rfl⟩ := (inspectRead_eq_ok rt content audit).mp haudit
  obtain rfl := Except.ok.inj hdata
  refine ⟨Nat.zero_add _, Option.or_none, ?_⟩
  intro hobserved line hline
  dsimp only at hobserved
  split at hobserved
  next hclean =>
    have herrors := (Bool.and_eq_true_iff.mp hclean).2
    have hcount : (nonBlank (readLines content).lines).countP (fun line => (parsed rt line).isNone) = 0 := by
      have hzero : (Summary.empty.add rt (readLines content).lines).parseErrors = 0 := of_decide_eq_true herrors
      exact (Nat.zero_add _).symm.trans hzero
    have hsome := List.countP_eq_zero.mp hcount line hline
    rwa [Bool.not_eq_true, Option.isNone_eq_false_iff] at hsome
  · cases hobserved

theorem snapshot_isOk_iff (now : PyStr) (counts : QueueCounts) (content : Bytes) :
    (∃ data, snapshot rt now counts (.ok ⟨content, none⟩) = .ok data) ↔ Readable rt content := by
  constructor
  · rintro ⟨data, h⟩
    obtain ⟨audit, haudit, -⟩ := (bind_eq_ok _ _ _).mp h
    exact ((inspectRead_eq_ok rt content audit).mp haudit).1
  · intro hreadable
    refine ⟨_, (bind_eq_ok _ _ _).mpr ⟨_, (inspectRead_eq_ok rt content _).mpr ⟨hreadable, rfl⟩, rfl⟩⟩

end Inspection

end V91Core.Observer
