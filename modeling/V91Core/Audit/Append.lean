import V91Core.Effect.Trace
import V91Core.Python.Exc

namespace V91Core.Audit

open V91Core.Python V91Core.Effect

-- What `append_audit` asks of the operating system.
inductive AuditOp where
  | makeParent
  | createLock
  | utcNow
  | writeLock (text : Bytes)
  | syncLock
  | openLog
  | writeLine (line : Bytes)
  | syncLog
  | closeLog
  | closeLock
  | unlinkLock
deriving DecidableEq

-- `utc_now` returns digits and separators.
abbrev UtcTime := { text : PyStr // ∀ c ∈ text, 0x20 ≤ c.val ∧ c.val < 0x7F }

abbrev AuditOp.Res : AuditOp → Type
  | .utcNow => UtcTime
  | _ => Unit

abbrev Action := Prog AuditOp AuditOp.Res PyExc

abbrev perform (op : AuditOp) : Action op.Res := Prog.perform op

-- `sort_keys=True, separators=(",", ":"), allow_nan=False`.
def eventStyle : Json.Style := ⟨false, true, true, false⟩

-- The bytes of `json.dumps(event, ...) + "\n"`.
def eventLine (rt : Runtime) (event : Json) : Except PyExc Bytes := do
  let text ← dumps rt eventStyle event
  encodeUtf8 (text ++ [cp '\n'])

def lockExists (lockPath : PyStr) : PyExc :=
  .controlError (py "Audit lock already exists: " ++ lockPath ++ py "; inspect it, do not delete blindly.")

-- `os.open` with `O_CREAT | O_EXCL`.
def acquireLock (lockPath : PyStr) : Action Unit :=
  Prog.catching (fun e => if e = .fileExists then .raise (lockExists lockPath) else .raise e)
    (perform .createLock)

-- The `finally` block.
def releaseLock : Action Unit := do
  perform .closeLock
  Prog.catching (fun e => if e = .fileNotFound then .ret () else .raise e) (perform .unlinkLock)

def lockText (pid : Nat) (now : UtcTime) : PyStr :=
  py "pid=" ++ natText pid ++ py " timestamp=" ++ now.val ++ [cp '\n']

-- The event is serialised after the log has been opened.
def writeEvent (rt : Runtime) (event : Json) : Action Unit := do
  perform .openLog
  Prog.finishing (perform .closeLog) do
    let line ← Prog.ofExcept (eventLine rt event)
    perform (.writeLine line)
    perform .syncLog

-- The `try` block.
def lockedAppend (rt : Runtime) (pid : Nat) (event : Json) : Action Unit := do
  let now : UtcTime ← perform .utcNow
  let text ← Prog.ofExcept (encodeUtf8 (lockText pid now))
  perform (.writeLock text)
  perform .syncLock
  writeEvent rt event

def appendAudit (rt : Runtime) (pid : Nat) (lockPath : PyStr) (event : Json) : Action Unit := do
  perform .makeParent
  acquireLock lockPath
  Prog.finishing releaseLock (lockedAppend rt pid event)

-- `append_audit` once the line of its event is known.
def appendLine (pid : Nat) (lockPath : PyStr) (line : Except PyExc Bytes) : Action Unit := do
  perform .makeParent
  acquireLock lockPath
  Prog.finishing releaseLock do
    let now : UtcTime ← perform .utcNow
    let text ← Prog.ofExcept (encodeUtf8 (lockText pid now))
    perform (.writeLock text)
    perform .syncLock
    perform .openLog
    Prog.finishing (perform .closeLog) do
      let line ← Prog.ofExcept line
      perform (.writeLine line)
      perform .syncLog

theorem appendAudit_eq (rt : Runtime) (pid : Nat) (lockPath : PyStr) (event : Json) :
    appendAudit rt pid lockPath event = appendLine pid lockPath (eventLine rt event) := rfl

section Outcome

-- The operation fails, and the removal of a lock file that is gone does not count.
def Fails (op : AuditOp) (r : Except PyExc op.Res) : Prop :=
  ∃ e, r = .error e ∧ ¬ (op = .unlinkLock ∧ e = .fileNotFound)

variable {Event : Type} {Ans : Event → (op : AuditOp) → Except PyExc op.Res → Prop} {Fault : Event → Prop}
  (hfault : ∀ event op r, Ans event op r → (Fault event ↔ Fails op r))

include hfault

theorem returnsUnless_op (op : AuditOp) (hop : op ≠ .unlinkLock) :
    (perform op).ReturnsUnless Ans Fault := by
  refine Prog.returnsUnless_perform op fun event r hans => ?_
  rw [hfault event op r hans]
  constructor
  · rintro ⟨e, rfl, -⟩
    exact ⟨e, rfl⟩
  · rintro ⟨e, rfl⟩
    exact ⟨e, rfl, fun h => hop h.1⟩

theorem returnsUnless_acquireLock (lockPath : PyStr) : (acquireLock lockPath).ReturnsUnless Ans Fault := by
  intro events out h
  have hlock := returnsUnless_op hfault .createLock (by decide)
  rcases (Prog.runs_catching _ _ _ _).mp h with ⟨a, rfl, hrun⟩ | ⟨e, first, rest, rfl, hrun, hraise⟩
  · exact hlock _ _ hrun
  · have hfirst := (hlock _ _ hrun).not.mp (by simp)
    have hout : ∃ e', out = .error e' := by
      split at hraise
      · exact ⟨_, ((Prog.runs_raise _ _ _).mp hraise).2⟩
      · exact ⟨_, ((Prog.runs_raise _ _ _).mp hraise).2⟩
    obtain ⟨e', rfl⟩ := hout
    constructor
    · rintro ⟨a, ha⟩
      cases ha
    · exact fun hall => absurd (fun event he => hall event (List.mem_append_left _ he)) hfirst

theorem returnsUnless_releaseLock : releaseLock.ReturnsUnless Ans Fault := by
  refine (returnsUnless_op hfault .closeLock (by decide)).bind fun _ => ?_
  intro events out h
  rcases (Prog.runs_catching _ _ _ _).mp h with ⟨a, rfl, hrun⟩ | ⟨e, first, rest, rfl, hrun, hhandler⟩
  · obtain ⟨event, rfl, hans⟩ := (Prog.runs_perform _ _ _).mp hrun
    simp [hfault event _ _ hans, Fails]
  · obtain ⟨event, rfl, hans⟩ := (Prog.runs_perform _ _ _).mp hrun
    have hevent := hfault event _ _ hans
    split at hhandler
    · obtain ⟨rfl, rfl⟩ := (Prog.runs_ret _ _ _).mp hhandler
      simp [Fails, *]
    · obtain ⟨rfl, rfl⟩ := (Prog.runs_raise _ _ _).mp hhandler
      simp [Fails, *]

omit hfault in
theorem isAscii_lockText (pid : Nat) (now : UtcTime) : isAscii (lockText pid now) = true := by
  have hpid : isAscii (natText pid) = true := by
    simp only [isAscii, List.all_eq_true, CodePoint.isAscii, decide_eq_true_eq]
    intro c hc
    have := natText_isDigit pid c hc
    simp only [CodePoint.isDigit, Bool.and_eq_true, decide_eq_true_eq] at this
    omega
  have hnow : isAscii now.val = true := by
    simp only [isAscii, List.all_eq_true, CodePoint.isAscii, decide_eq_true_eq]
    intro c hc
    have := now.property c hc
    omega
  have hstart : isAscii (py "pid=") = true := by decide
  have hmiddle : isAscii (py " timestamp=") = true := by decide
  have hend : isAscii [cp '\n'] = true := by decide
  simp only [isAscii] at *
  simp only [lockText, List.all_append, hstart, hpid, hmiddle, hnow, hend, Bool.and_self]

-- A line is appended exactly when no operation fails.
theorem appendLine_returnsUnless (pid : Nat) (lockPath : PyStr) (line : Bytes) :
    (appendLine pid lockPath (.ok line)).ReturnsUnless Ans Fault := by
  have hop := fun op hne => returnsUnless_op hfault op hne
  refine (hop .makeParent (by decide)).bind fun _ => (returnsUnless_acquireLock hfault lockPath).bind fun _ =>
    Prog.ReturnsUnless.finishing ?_ (returnsUnless_releaseLock hfault)
  refine (hop .utcNow (by decide)).bind fun now => ?_
  obtain ⟨text, htext⟩ := encodeUtf8_of_ascii _ (isAscii_lockText pid now)
  rw [htext]
  exact (hop (.writeLock text) (by simp)).bind fun _ => (hop .syncLock (by decide)).bind fun _ =>
    (hop .openLog (by decide)).bind fun _ => Prog.ReturnsUnless.finishing
      ((hop (.writeLine line) (by simp)).bind fun _ => hop .syncLog (by decide)) (hop .closeLog (by decide))

theorem appendAudit_returnsUnless (rt : Runtime) (pid : Nat) (lockPath : PyStr) (event : Json) (line : Bytes)
    (hline : eventLine rt event = .ok line) :
    (appendAudit rt pid lockPath event).ReturnsUnless Ans Fault := by
  rw [appendAudit_eq, hline]
  exact appendLine_returnsUnless hfault pid lockPath line

omit hfault in
-- What has been appended is the line.
theorem line_of_appendLine (pid : Nat) (lockPath : PyStr) (serialised : Except PyExc Bytes) (events : List Event)
    (h : (appendLine pid lockPath serialised).Runs Ans events (.ok ())) :
    ∃ line, serialised = .ok line ∧ ∃ step ∈ events, Ans step (.writeLine line) (.ok ()) := by
  obtain ⟨_, _, _, rfl, -, hacquire⟩ := (Prog.runs_bind_ok _ _ _ _).mp h
  obtain ⟨_, _, _, rfl, -, hlocked⟩ := (Prog.runs_bind_ok _ _ _ _).mp hacquire
  have hreturned : ∀ {α : Type} (p : Action α) (cleanup : Action Unit) (events : List Event) (a : α),
      (Prog.finishing cleanup p).Runs Ans events (.ok a) →
        ∃ first rest, events = first ++ rest ∧ p.Runs Ans first (.ok a) := by
    intro α p cleanup events a hrun
    obtain ⟨outcome, first, rest, rfl, hfirst, ⟨-, rfl⟩ | ⟨e, he, -⟩⟩ := (Prog.runs_finishing _ _ _ _).mp hrun
    · exact ⟨first, rest, rfl, hfirst⟩
    · cases he
  obtain ⟨_, _, rfl, hbody⟩ := hreturned _ _ _ _ hlocked
  obtain ⟨_, _, _, rfl, -, hnow⟩ := (Prog.runs_bind_ok _ _ _ _).mp hbody
  obtain ⟨_, _, _, rfl, -, htext⟩ := (Prog.runs_bind_ok _ _ _ _).mp hnow
  obtain ⟨_, _, _, rfl, -, hwrite⟩ := (Prog.runs_bind_ok _ _ _ _).mp htext
  obtain ⟨_, _, _, rfl, -, hsync⟩ := (Prog.runs_bind_ok _ _ _ _).mp hwrite
  obtain ⟨_, _, _, rfl, -, hopen⟩ := (Prog.runs_bind_ok _ _ _ _).mp hsync
  obtain ⟨_, _, rfl, hlog⟩ := hreturned _ _ _ _ hopen
  obtain ⟨line, _, _, rfl, hline, hline'⟩ := (Prog.runs_bind_ok _ _ _ _).mp hlog
  obtain ⟨_, _, _, rfl, hwritten, -⟩ := (Prog.runs_bind_ok _ _ _ _).mp hline'
  obtain ⟨step, rfl, hans⟩ := (Prog.runs_perform _ _ _).mp hwritten
  refine ⟨line, ((Prog.runs_ofExcept _ _ _).mp hline).2.symm, step, ?_, hans⟩
  simp only [List.mem_append, List.mem_singleton, true_or, or_true]

omit hfault in
theorem line_of_appended (rt : Runtime) (pid : Nat) (lockPath : PyStr) (event : Json) (events : List Event)
    (h : (appendAudit rt pid lockPath event).Runs Ans events (.ok ())) :
    ∃ line, eventLine rt event = .ok line ∧ ∃ step ∈ events, Ans step (.writeLine line) (.ok ()) :=
  line_of_appendLine pid lockPath _ events h

omit hfault in
-- Nothing but the line is written into the log.
theorem appendLine_emits (P : Event → Prop) (pid : Nat) (lockPath : PyStr) (serialised : Except PyExc Bytes)
    (hother : ∀ event op r, (∀ line, op ≠ .writeLine line) → Ans event op r → P event)
    (hline : ∀ event line r, serialised = .ok line → Ans event (.writeLine line) r → P event) :
    (appendLine pid lockPath serialised).Emits Ans P := by
  have hop : ∀ op, (∀ line, op ≠ .writeLine line) → (perform op).Emits Ans P :=
    fun op hne => Prog.emits_perform op fun event r => hother event op r hne
  have hraise : ∀ e : PyExc, (Prog.raise e : Action Unit).Emits Ans P := Prog.emits_raise
  have hacquire : (acquireLock lockPath).Emits Ans P := by
    refine (hop .createLock (by simp)).catching fun e => ?_
    split
    · exact hraise _
    · exact hraise _
  have hrelease : releaseLock.Emits Ans P := by
    refine (hop .closeLock (by simp)).bind fun _ => (hop .unlinkLock (by simp)).catching fun e => ?_
    split
    · exact Prog.emits_ret ()
    · exact hraise _
  refine (hop .makeParent (by simp)).bind fun _ => hacquire.bind fun _ => Prog.Emits.finishing ?_ hrelease
  refine (hop .utcNow (by simp)).bind fun now => (Prog.emits_ofExcept _).bind fun text =>
    (hop (.writeLock text) (by simp)).bind fun _ => (hop .syncLock (by simp)).bind fun _ =>
    (hop .openLog (by simp)).bind fun _ => Prog.Emits.finishing ?_ (hop .closeLog (by simp))
  cases serialised with
  | error e => exact hraise e
  | ok line =>
      exact (Prog.emits_perform _ fun event r => hline event line r rfl).bind fun _ => hop .syncLog (by simp)

end Outcome

end V91Core.Audit
