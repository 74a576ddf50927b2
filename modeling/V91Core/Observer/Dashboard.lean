import V91Core.Effect.Driver
import V91Core.Observer.Log
import V91Core.Observer.Placed
import V91Core.Python.Format
import V91Core.Python.ReadText
import V91Core.Python.Statistics

namespace V91Core.Observer

open V91Core.Python V91Core.Effect V91Core.Worker

section Model

variable (rt : Runtime)

def isJsonDecodeError : PyExc → Bool
  | .jsonDecode _ _ => true
  | _ => false

-- `.error reason` stands for `(None, reason)`.
def readJson (file : Except PyExc Bytes) : Except PyExc (Except PyStr Fields) :=
  let read : Except PyExc Json := do
    let content ← file
    let text ← readText content
    loadsText rt text
  match read with
  | .ok (.obj value) => .ok (.ok value)
  | .ok _ => .ok (.error (py "JSON root is not an object"))
  | .error e =>
      if e = .fileNotFound then .ok (.error (py "file not found"))
      else if e.isOSError || e = .unicodeDecode || isJsonDecodeError e then
        .ok (.error (py "unreadable or invalid JSON (" ++ e.typeName ++ py ")"))
      else .error e

-- The counts of the four directories.
structure Tally where
  pending : Int
  processing : Int
  done : Int
  failed : Int

structure AuditView where
  events : Option Json
  parseErrors : Json
  lastEvent : Option Json

inductive ObserverView where
  | unknown (reason : PyStr)
  | read (status : Status) (timestampUtc source : Json) (queueCounts : Tally) (audit : AuditView)

def countField (counts : Fields) (key : String) : Option Int :=
  match Json.lookup (py key) counts with
  | some (.int n) => if n < 0 then none else some n
  | _ => none

def readTally (counts : Fields) : Option Tally := do
  let pending ← countField counts "pending"
  let processing ← countField counts "processing"
  let done ← countField counts "done"
  let failed ← countField counts "failed"
  return ⟨pending, processing, done, failed⟩

-- `isinstance(value, int)`, which holds of a boolean as well.
def asInt : Json → Option Int
  | .int n => some n
  | .bool b => some b.toNat
  | _ => none

def isDict : Json → Bool
  | .obj _ => true
  | _ => false

-- `required observer fields`, if they are there.
def requiredFields (data : Fields) : Option (Fields × Fields) :=
  match Json.lookup (py "queue_counts") data, Json.lookup (py "audit") data with
  | some (.obj counts), some (.obj audit) => some (counts, audit)
  | _, _ => none

def isObserved (data : Fields) : Bool :=
  match Json.lookup (py "status") data with
  | some (.str status) => status = py "OBSERVED"
  | _ => false

def viewFields (data : Fields) : ObserverView :=
  match requiredFields data with
  | none => .unknown (py "required observer fields are missing")
  | some (counts, audit) =>
      match readTally counts with
      | none => .unknown (py "queue counts are missing or invalid")
      | some tally =>
          match asInt (get "parse_errors" audit) with
          | none => .unknown (py "audit parse-error count is missing or invalid")
          | some errors =>
              if errors < 0 then .unknown (py "audit parse-error count is missing or invalid")
              else .read (if isObserved data && errors = 0 then .observed else .pendingWitness)
                (get "timestamp_utc" data) ((Json.lookup (py "source") data).getD (.str (py "UNKNOWN"))) tally
                ⟨(Json.lookup (py "events") audit).filter fun j => (asInt j).isSome, get "parse_errors" audit,
                  (Json.lookup (py "last_event") audit).filter isDict⟩

def readObserver (file : Except PyExc Bytes) : Except PyExc ObserverView := do
  match ← readJson rt file with
  | .error reason => return .unknown reason
  | .ok data => return viewFields data

-- What `shutil.disk_usage` returns.
structure Usage where
  total : Int
  used : Int
  free : Int

inductive DiskView where
  | unknown (reason : PyStr)
  | observed (usage : Usage) (usedPercent : Option Float)

-- A failure is an `OSError` of this class.
def readDisk : Except PyStr Usage → Except PyExc DiskView
  | .error name => .ok (.unknown name)
  | .ok usage =>
      if usage.total = 0 then .ok (.observed usage none)
      else do
        let share ← rationalToFloat (usage.used / usage.total)
        return .observed usage (some (roundFloat 2 (share * 100.0)))

-- The report of the observer, the answer of the disk, the task files in the directories, where
-- `none` is one that cannot be listed, and what standard output answers.
structure Host where
  report : Except PyExc Bytes
  disk : Except PyStr Usage
  queue : Dir → Option Nat
  now : PyStr
  stdout : Except PyExc Unit

structure Report where
  generatedAtUtc : PyStr
  overallStatus : Status
  observer : ObserverView
  queueFilesystemCounts : Dir → Option Nat
  disk : DiskView

def ObserverView.observed : ObserverView → Bool
  | .read .observed _ _ _ _ => true
  | _ => false

def DiskView.isObserved : DiskView → Bool
  | .observed _ _ => true
  | .unknown _ => false

-- `UNKNOWN_OR_INCOMPLETE` is the other status. `json.load` runs four frames further down than
-- `main` would call it.
def buildReport (host : Host) : Except PyExc Report := do
  let observer ← readObserver (rt.below 4) host.report
  let disk ← readDisk host.disk
  let overall := if observer.observed && disk.isObserved then Status.observed else .pendingWitness
  return ⟨host.now, overall, observer, host.queue, disk⟩

def overallText : Status → PyStr
  | .observed => py "OBSERVED"
  | .pendingWitness => py "UNKNOWN_OR_INCOMPLETE"

-- `f"\x7bvalue\x7d"`, where a missing key gives `None`.
def valueText (value : Option Json) : PyStr := Json.toStr rt.printable (value.getD .null)

def Tally.text (tally : Tally) : PyStr :=
  py "pending=" ++ intText tally.pending ++ py ", processing=" ++ intText tally.processing ++ py ", done=" ++
    intText tally.done ++ py ", failed=" ++ intText tally.failed

-- `last.get(key, "UNKNOWN")`.
def lastField (key : String) (last : Fields) : PyStr :=
  Json.toStr rt.printable ((Json.lookup (py key) last).getD (.str (py "UNKNOWN")))

def lastText : Option Json → List PyStr
  | some (.obj last) => [py "Last audit event: phase=" ++ lastField rt "phase" last ++ py "; status=" ++
      lastField rt "status" last ++ py "; task=" ++ lastField rt "task_id" last]
  | _ => []

def ObserverView.lines : ObserverView → List PyStr
  | .unknown reason => [py "Observer: UNKNOWN", py "Observer detail: " ++ reason]
  | .read status timestampUtc _ queueCounts audit =>
      [py "Observer: " ++ status.value] ++
      (if (PyData.ofJson timestampUtc).truthy then
        [py "Observer timestamp (UTC): " ++ Json.toStr rt.printable timestampUtc] else []) ++
      [py "Observer queue counts: " ++ queueCounts.text,
        py "Audit events=" ++ valueText rt audit.events ++ py "; parse errors=" ++
          Json.toStr rt.printable audit.parseErrors] ++ lastText rt audit.lastEvent

def DiskView.line : DiskView → PyStr
  | .unknown reason => py "Disk: UNKNOWN (" ++ reason ++ py ")"
  | .observed usage usedPercent =>
      py "Disk: " ++ (usedPercent.map Json.reprFloat).getD (py "None") ++ py "% used; " ++ intText usage.free ++
        py " bytes free"

def renderText (report : Report) : PyStr :=
  Json.joinWith [cp '\n'] ([py "V91 LOCAL STATUS DASHBOARD (READ ONLY)",
    py "Overall: " ++ overallText report.overallStatus] ++ report.observer.lines rt ++ [report.disk.line,
    py "Not checked: service liveness, API health, backup/restore, production deployment.",
    py "No services were started, stopped, scaled, repaired, or deployed."])

-- `print` on an output that is strict UTF-8.
def printText (host : Host) (text : PyStr) : Except PyExc Unit := do
  let _ ← encodeUtf8 (text ++ [cp '\n'])
  host.stdout

-- `main` without `--json`; the result is its exit code.
def dashboard (host : Host) : Except PyExc Nat := do
  let report ← buildReport rt host
  printText host (renderText rt report)
  return if report.overallStatus = .observed then 0 else 2

end Model

section Shown

variable (rt : Runtime) (data : Snapshot)

-- The report of a missing file.
def reportFile : Option Bytes → Except PyExc Bytes
  | some content => .ok content
  | none => .error .fileNotFound

-- The four counts, if all of them are known.
def QueueCounts.tally (counts : QueueCounts) : Option Tally := do
  let pending ← counts.pending
  let processing ← counts.processing
  let done ← counts.done
  let failed ← counts.failed
  return ⟨pending, processing, done, failed⟩

-- How the dashboard shows a snapshot.
def Snapshot.shown : ObserverView :=
  match data.queueCounts.tally with
  | none => .unknown (py "queue counts are missing or invalid")
  | some tally => .read (if data.status = .observed ∧ data.audit.parseErrors = 0 then .observed else .pendingWitness)
      (Json.asRead (.str data.timestampUtc)) (.str (py "LOCAL_FILESYSTEM")) tally
      ⟨some (.int data.audit.events), .int data.audit.parseErrors,
        data.audit.lastEvent.map fun event => Json.asRead (.obj event.fields)⟩

variable {data}

theorem asRead_dict (fields : Fields) (names : List String) (h : fields.map Prod.fst = names.map py)
    (hnodup : (names.map py).Nodup) (hplain : (names.all fun name => Json.joinPairs (py name) = py name) = true) :
    ∃ others, Json.asRead (.obj fields) = .obj others ∧
      ∀ key, Json.lookup key others = (Json.lookup key fields).map Json.asRead := by
  refine Json.asRead_obj fields (by rwa [h]) fun name hname => ?_
  rw [h] at hname
  obtain ⟨text, htext, rfl⟩ := List.mem_map.mp hname
  exact of_decide_eq_true (List.all_eq_true.mp hplain text htext)

theorem asRead_lastEvent (event : Option LastEvent) :
    (some (Json.asRead (lastEventJson event))).filter isDict = event.map fun e => Json.asRead (.obj e.fields) := by
  cases event with
  | none => rfl
  | some e =>
      obtain ⟨others, hothers, -⟩ := asRead_dict e.fields ["timestamp_utc", "phase", "status", "task_id", "action"] rfl
        (by decide +kernel) (by decide +kernel)
      rw [lastEventJson, Option.map_some, hothers]
      rfl

theorem countField_asRead (counts others : Fields) (key : String) (count : Option Nat)
    (h : ∀ key, Json.lookup key others = (Json.lookup key counts).map Json.asRead)
    (hkey : Json.lookup (py key) counts = some (countJson count)) : countField others key = count.map Int.ofNat := by
  rw [countField, h, hkey]
  cases count with
  | none => rfl
  | some n =>
      show (if (n : Int) < 0 then none else some (n : Int)) = some (n : Int)
      exact if_neg (by omega)

theorem readTally_asRead (counts : QueueCounts) (others : Fields)
    (h : ∀ key, Json.lookup key others = (Json.lookup key counts.fields).map Json.asRead) :
    readTally others = counts.tally := by
  have hpending := countField_asRead counts.fields others "pending" counts.pending h rfl
  have hprocessing := countField_asRead counts.fields others "processing" counts.processing h rfl
  have hdone := countField_asRead counts.fields others "done" counts.done h rfl
  have hfailed := countField_asRead counts.fields others "failed" counts.failed h rfl
  obtain ⟨pending, processing, done, failed⟩ := counts
  rw [readTally, hpending, hprocessing, hdone, hfailed]
  cases pending <;> cases processing <;> cases done <;> cases failed <;> rfl

theorem isObserved_iff (status : Status) :
    decide (Json.joinPairs status.value = py "OBSERVED") = decide (status = .observed) := by
  cases status with
  | observed => decide +kernel
  | pendingWitness => decide +kernel

-- The report is read as its snapshot.
theorem viewFields_shown (others : Fields)
    (h : ∀ key, Json.lookup key others = (Json.lookup key data.fields).map Json.asRead) :
    viewFields others = data.shown := by
  obtain ⟨counts, hcounts, hcount⟩ :=
    asRead_dict data.queueCounts.fields ["pending", "processing", "done", "failed"] rfl
    (by decide +kernel) (by decide +kernel)
  obtain ⟨audit, haudit, hfield⟩ := asRead_dict data.audit.fields ["events", "parse_errors", "last_event"] rfl
    (by decide +kernel) (by decide +kernel)
  have hrequired : requiredFields others = some (counts, audit) := by
    have hcountsField : Json.lookup (py "queue_counts") others = some (.obj counts) :=
      (h _).trans (congrArg some hcounts)
    have hauditField : Json.lookup (py "audit") others = some (.obj audit) := (h _).trans (congrArg some haudit)
    rw [requiredFields, hcountsField, hauditField]
  have hstatus : isObserved others = decide (data.status = .observed) := by
    have hfield : Json.lookup (py "status") others = some (.str (Json.joinPairs data.status.value)) := h _
    rw [isObserved, hfield]
    exact isObserved_iff data.status
  have hevents : Json.lookup (py "events") audit = some (.int data.audit.events) := hfield _
  have herrors : Json.lookup (py "parse_errors") audit = some (.int data.audit.parseErrors) := hfield _
  have hlast : Json.lookup (py "last_event") audit = some (Json.asRead (lastEventJson data.audit.lastEvent)) := hfield _
  have htime : Json.lookup (py "timestamp_utc") others = some (Json.asRead (.str data.timestampUtc)) := h _
  have hsource : Json.lookup (py "source") others = some (.str (py "LOCAL_FILESYSTEM")) := by
    have hplain : Json.joinPairs (py "LOCAL_FILESYSTEM") = py "LOCAL_FILESYSTEM" := by decide +kernel
    exact (h _).trans (congrArg (fun s => some (Json.str s)) hplain)
  unfold viewFields Snapshot.shown
  rw [hrequired]
  dsimp only
  rw [readTally_asRead data.queueCounts counts hcount]
  cases data.queueCounts.tally with
  | none => rfl
  | some tally =>
      have hnonneg : ¬(data.audit.parseErrors : Int) < 0 := by omega
      dsimp only
      simp only [get, herrors, hevents, hlast, htime, hsource, hstatus, Option.getD_some, asRead_lastEvent, asInt,
        if_neg hnonneg]
      congr 1
      by_cases hobserved : data.status = .observed
      · simp [hobserved]
      · simp [hobserved]

-- Reading a report where there is room for it gives the snapshot that it was written from.
theorem readObserver_report (writer : Runtime) (content : Bytes) (h : reportContent writer data = .ok content)
    (hdepth : Json.depth (.obj data.fields) ≤ rt.nesting) : readObserver rt (.ok content) = .ok data.shown := by
  obtain ⟨text, htext, hbytes⟩ := (bind_eq_ok _ _ _).mp h
  rw [mapError_eq_ok] at htext
  have hfits := Json.fits_of_encodeLines reportStyle _ _ _ text htext
  rw [Json.encodeLines_fits reportStyle _ rt.nesting 0 _ hfits ((Json.fits_iff_depth _ _ _ _ hfits).mpr hdepth)]
    at htext
  rw [encodeUtf8_eq_ok] at hbytes
  have hchars := Json.encodeLines_chars reportStyle rfl rt.nesting 0 _ text htext
  have hreturn : cp '\r' ∉ text ++ [cp '\n'] := by
    intro hmem
    rcases List.mem_append.mp hmem with hmem | hmem
    · rcases hchars _ hmem with hline | ⟨hlow, -⟩
      · exact absurd hline (by decide)
      · exact absurd hlow (by decide)
    · exact absurd (List.mem_singleton.mp hmem) (by decide)
  have hread : readText content = .ok (text ++ [cp '\n']) := by
    rw [readText_encode _ content hbytes, universalNewlines_id _ hreturn]
  have hws : ∀ c ∈ [cp '\n'], Json.isWs c = true := by
    intro c hc
    rw [List.mem_singleton.mp hc]
    decide
  have hloads := Json.loads_encodeLines reportStyle rt.nesting 0 rfl rfl _ text [cp '\n'] hws htext
  obtain ⟨others, hothers, hfield⟩ := asRead_dict data.fields
    ["timestamp_utc", "source", "status", "evidence_status", "queue_counts", "audit", "note"] rfl
    (by decide +kernel) (by decide +kernel)
  have hobj : loadsText rt (text ++ [cp '\n']) = .ok (.obj others) := by
    rw [loadsText_eq_ok, hloads, ← hothers]
    rfl
  have hjson : readJson rt (.ok content) = .ok (.ok others) := by
    unfold readJson
    simp only [ok_bind, hread, hobj]
  rw [readObserver, hjson, ok_bind]
  exact congrArg Except.ok (viewFields_shown others hfield)

end Shown

section Dashboard

variable (cfg : Config) (rounds : Nat → Nat) (initial : Option Bytes)

theorem observed_iff (rt : Runtime) (now : PyStr) (counts : QueueCounts) (log : Except PyExc LogRead) (data : Snapshot)
    (h : snapshot rt now counts log = .ok data) : data.status = .observed ↔
      data.queueCounts.known = true ∧ data.audit.parseErrors = 0 := by
  obtain ⟨audit, -, hdata⟩ := (bind_eq_ok _ _ _).mp h
  obtain rfl := Except.ok.inj hdata
  dsimp only
  by_cases hclean : (counts.known && decide (audit.parseErrors = 0)) = true
  · rw [if_pos hclean]
    obtain ⟨hknown, herrors⟩ := Bool.and_eq_true_iff.mp hclean
    exact iff_of_true rfl ⟨hknown, of_decide_eq_true herrors⟩
  · rw [if_neg hclean]
    refine iff_of_false (by simp) fun hboth => hclean ?_
    rw [hboth.1, decide_eq_true hboth.2]
    rfl

theorem tally_of_known (counts : QueueCounts) (h : counts.known = true) : ∃ tally, counts.tally = some tally := by
  obtain ⟨pending, processing, done, failed⟩ := counts
  cases pending <;> cases processing <;> cases done <;> cases failed <;>
    first
      | exact ⟨_, rfl⟩
      | cases h

theorem shown_observed (rt : Runtime) (now : PyStr) (counts : QueueCounts) (log : Except PyExc LogRead)
    (data : Snapshot)
    (h : snapshot rt now counts log = .ok data) : data.shown.observed = true ↔ data.status = .observed := by
  have hobserved := observed_iff rt now counts log data h
  unfold Snapshot.shown
  constructor
  · intro hshown
    cases htally : data.queueCounts.tally with
    | none =>
        rw [htally] at hshown
        cases hshown
    | some tally =>
        rw [htally] at hshown
        by_contra hstatus
        simp [hstatus, ObserverView.observed] at hshown
  · intro hstatus
    obtain ⟨hknown, herrors⟩ := hobserved.mp hstatus
    obtain ⟨tally, htally⟩ := tally_of_known _ hknown
    simp [htally, hstatus, herrors, ObserverView.observed]

-- The text can be printed.
def Printed (reader : Runtime) (host : Host) (view : ObserverView) (disk : DiskView) : Prop :=
  (∀ c ∈ renderText reader ⟨host.now, .observed, view, host.queue, disk⟩, c.isSurrogate = false) ∧
    host.stdout = .ok ()

theorem printText_eq_ok (host : Host) (text : PyStr) :
    printText host text = .ok () ↔ (∀ c ∈ text, c.isSurrogate = false) ∧ host.stdout = .ok () := by
  have hencode : (∃ bs, encodeUtf8 (text ++ [cp '\n']) = .ok bs) ↔ ∀ c ∈ text, c.isSurrogate = false := by
    have hbreak : (cp '\n').isSurrogate = false := by decide
    simp only [encodeUtf8_eq_ok, ← Option.isSome_iff_exists, utf8Encode_isSome, List.forall_mem_append,
      List.forall_mem_singleton, hbreak, and_true]
  rw [printText, bind_eq_ok, ← hencode]
  exact ⟨fun ⟨bs, hbs, hout⟩ => ⟨⟨bs, hbs⟩, hout⟩, fun ⟨⟨bs, hbs⟩, hout⟩ => ⟨bs, hbs, hout⟩⟩

-- What the dashboard says of a report that can be read.
theorem dashboard_eq_zero (rt : Runtime) (host : Host) (view : ObserverView)
    (h : readObserver (rt.below 4) host.report = .ok view) :
    dashboard rt host = .ok 0 ↔ view.observed = true ∧
      ∃ disk, readDisk host.disk = .ok disk ∧ disk.isObserved = true ∧ Printed rt host view disk := by
  rw [dashboard, buildReport, h, ok_bind]
  cases hdisk : readDisk host.disk with
  | error e => simp
  | ok disk =>
      simp only [ok_bind, Except.ok.injEq, exists_eq_left']
      show (printText host _ >>= fun _ => Except.ok (if (if (view.observed && disk.isObserved) = true then
        Status.observed else .pendingWitness) = .observed then 0 else 2)) = Except.ok 0 ↔ _
      rw [bind_eq_ok]
      by_cases hboth : (view.observed && disk.isObserved) = true
      · obtain ⟨hview, hseen⟩ := Bool.and_eq_true_iff.mp hboth
        simp only [hview, hseen, Bool.and_self, if_true, and_true, true_and, Printed, ← printText_eq_ok]
        exact ⟨fun ⟨u, hprint⟩ => hprint, fun hprint => ⟨(), hprint⟩⟩
      · rw [if_neg hboth]
        refine iff_of_false (by simp) fun h => hboth (Bool.and_eq_true_iff.mpr ⟨h.1, h.2.1⟩)

-- Everything succeeds, the queue is empty and so is the log.
def answer (s : Shared) : (op : ObserverOp) → Option (Except PyExc op.Res × Shared)
  | .boot => none
  | .stopped => some (.ok false, s)
  | .countTasks dir => some (.ok 0, { s with counted := (dir, .ok 0) :: s.counted })
  | .readLog => some (.ok ⟨[], none⟩, { s with logs := .ok ⟨[], none⟩ :: s.logs })
  | .utcNow => some (.ok sampleTime, s)
  | .openTemp => some (.ok (), { s with temp := some [] })
  | .writeTemp (.ok content) => some (.ok (), { s with temp := some content })
  | .writeTemp (.error _) => none
  | .replaceReport => s.temp.map fun content => (.ok (), { s with report := some content, temp := none })
  | .makeLayout | .makeParent | .syncTemp | .print _ | .sleep => some (.ok (), s)

theorem answer_acts (s : Shared) (op : ObserverOp) (r : Except PyExc op.Res) (s' : Shared)
    (h : answer s op = some (r, s')) : Acts s op r s' := by
  cases op with
  | boot => cases h
  | writeTemp content =>
      cases content with
      | error e => cases h
      | ok content =>
          obtain ⟨rfl, rfl⟩ := Prod.mk.inj (Option.some.inj h)
          exact .writeTemp s content
  | replaceReport =>
      obtain ⟨content, htemp, h⟩ := Option.map_eq_some_iff.mp h
      obtain ⟨rfl, rfl⟩ := Prod.mk.inj h
      exact .replaceReport s content htemp
  | countTasks dir =>
      obtain ⟨rfl, rfl⟩ := Prod.mk.inj (Option.some.inj h)
      exact .countTasks s dir _
  | readLog =>
      obtain ⟨rfl, rfl⟩ := Prod.mk.inj (Option.some.inj h)
      exact .readLog s _
  | openTemp =>
      obtain ⟨rfl, rfl⟩ := Prod.mk.inj (Option.some.inj h)
      exact .openTemp s
  | makeLayout | stopped | utcNow | makeParent | syncTemp | print | sleep =>
      obtain ⟨rfl, rfl⟩ := Prod.mk.inj (Option.some.inj h)
      exact .quiet s _ _ rfl (by simp)

-- The first process starts and does what it wants to.
def reply (i : Nat) (s : Shared) : (op : ObserverOp) → Option (Except PyExc op.Res × Shared)
  | .boot => if s.live = i then some (.ok (), { s with live := i + 1 }) else none
  | op => if s.live = i + 1 then answer s op else none

theorem reply_sound (i : Nat) (s : Shared) (op : ObserverOp) (r : Except PyExc op.Res) (s' : Shared)
    (h : reply i s op = some (r, s')) : system.exec i s op r s' := by
  by_cases hboot : op = .boot
  · subst hboot
    simp only [reply] at h
    split at h
    · next hnext =>
        obtain ⟨rfl, rfl⟩ := Prod.mk.inj (Option.some.inj h)
        exact .boot s hnext
    · cases h
  · have hreply : reply i s op = if s.live = i + 1 then answer s op else none := by
      cases op with
      | boot => exact absurd rfl hboot
      | _ => rfl
    rw [hreply] at h
    split at h
    · next hlive => exact .acts s op r s' hlive (answer_acts s op r s' h)
    · cases h

def driver : Driver system := ⟨reply, reply_sound⟩

def sampleConfig : Config := ⟨sampleRuntime, 10⟩

def sampleStart : Observers := start sampleConfig (fun _ => 1) none

end Dashboard

end V91Core.Observer
