import V91Core.Effect.Answers
import V91Core.Json.Chars
import V91Core.Worker.Agreement
import V91Core.Worker.Workspace

namespace V91Core.Worker

open V91Core.Python V91Core.Effect V91Core.Audit

-- A name that `glob("*.json")` finds.
abbrev TaskFile := { name : PyStr // isTaskFile name = true }

-- The name without `.json`.
def TaskFile.base (f : TaskFile) : PyStr := f.val.take (f.val.length - 5)

-- What stands in front of its first dot.
def TaskFile.head (f : TaskFile) : PyStr := f.base.takeWhile (· ≠ cp '.')

theorem TaskFile.head_eq_base_iff (f : TaskFile) : f.head = f.base ↔ cp '.' ∉ f.base := by
  rw [head, List.takeWhile_eq_self_iff]
  simp only [decide_eq_true_eq]
  exact ⟨fun h hmem => h _ hmem rfl, fun h c hc heq => h (heq ▸ hc)⟩

theorem taskIdOf_append_dot (s rest : PyStr) : taskIdOf (s ++ (py "." ++ rest)) = taskIdOf s := by
  induction s with
  | nil => rfl
  | cons c s ih =>
      unfold taskIdOf at ih ⊢
      by_cases hc : c = cp '.'
      · rw [List.cons_append, List.takeWhile_cons_of_neg (by simp [hc]), List.takeWhile_cons_of_neg (by simp [hc])]
      · rw [List.cons_append, List.takeWhile_cons_of_pos (by simp [hc]), List.takeWhile_cons_of_pos (by simp [hc]), ih]

variable {cfg : Config}

-- The id that is cut out of the name under which a file is claimed.
theorem taskIdOf_claimName (f : TaskFile) (u : UuidHex) : taskIdOf (claimName cfg f.val u) = f.head := by
  have hcut : taskIdOf (claimName cfg f.val u) = taskIdOf (stem f.val) := by
    simp only [claimName, List.append_assoc]
    exact taskIdOf_append_dot _ _
  rw [hcut, stem]
  by_cases hname : f.val = py ".json"
  · rw [if_pos hname, TaskFile.head, TaskFile.base, hname]
    decide
  · rw [if_neg hname]
    rfl

section Claim

-- A file is renamed at the end of the loop or not at all.
theorem claimFrom_renames (names : List PyStr) (steps : List WorkerStep) (r : Except PyExc (Option PyStr))
    (h : (claimFrom cfg names).Runs WorkerAns steps r) (source target : PyStr)
    (hmem : ⟨.rename ⟨.pending, source⟩ ⟨.processing, target⟩, .ok ()⟩ ∈ steps) :
    r = .ok (some target) ∧ ∃ u, target = claimName cfg source u := by
  induction names generalizing steps with
  | nil =>
      obtain ⟨rfl, -⟩ := (Prog.runs_ret _ _ _).mp h
      cases hmem
  | cons name rest ih =>
      rcases (Prog.runs_bind _ _ _ _).mp h with ⟨u, _, later, rfl, huuid, hrest⟩ | ⟨e, rfl, huuid⟩
      · rw [runs_op _ _ _ huuid, List.singleton_append] at hmem
        have hlater := (List.mem_cons.mp hmem).resolve_left (by simp)
        rcases (Prog.runs_bind _ _ _ _).mp hrest with ⟨moved, _, last, rfl, hmove, hlast⟩ | ⟨e, -, hmove⟩
        · obtain ⟨outcome, hmoved, hrename⟩ := (Prog.runs_attempt _ _ _).mp hmove
          obtain rfl := Except.ok.inj hmoved
          rw [runs_op _ _ _ hrename, List.singleton_append] at hlater
          rcases List.mem_cons.mp hlater with heq | hlast'
          · cases heq
            obtain ⟨-, rfl⟩ := (Prog.runs_ret _ _ _).mp hlast
            exact ⟨rfl, u, rfl⟩
          · cases moved with
            | ok done =>
                obtain ⟨rfl, -⟩ := (Prog.runs_ret _ _ _).mp hlast
                cases hlast'
            | error e =>
                dsimp only at hlast
                by_cases hgone : e = .fileNotFound ∨ e = .fileExists
                · rw [if_pos hgone] at hlast
                  exact ih last hlast hlast'
                · rw [if_neg hgone] at hlast
                  obtain ⟨rfl, -⟩ := (Prog.runs_raise _ _ _).mp hlast
                  cases hlast'
        · obtain ⟨outcome, houtcome, -⟩ := (Prog.runs_attempt _ _ _).mp hmove
          cases houtcome
      · rw [runs_op _ _ _ huuid] at hmem
        simp at hmem

theorem claimOne_renames (steps : List WorkerStep) (r : Except PyExc (Option PyStr))
    (h : (claimOne cfg).Runs WorkerAns steps r) (source target : PyStr)
    (hmem : ⟨.rename ⟨.pending, source⟩ ⟨.processing, target⟩, .ok ()⟩ ∈ steps) :
    r = .ok (some target) ∧ ∃ u, target = claimName cfg source u := by
  rcases (Prog.runs_bind _ _ _ _).mp h with ⟨names, _, rest, rfl, hlist, hrest⟩ | ⟨e, rfl, hlist⟩
  · rw [runs_op _ _ _ hlist, List.singleton_append] at hmem
    exact claimFrom_renames _ rest r hrest source target ((List.mem_cons.mp hmem).resolve_left (by simp))
  · rw [runs_op _ _ _ hlist] at hmem
    simp at hmem

end Claim

section Runs

variable (cfg) (ws : Workspace) (depth : Nat) (content : Bytes)

-- What the answers of the system say of the claimed file and of the workspace.
structure Sees (steps : List WorkerStep) : Prop where
  size : ∀ name size, ⟨.statClaimed name, .ok size⟩ ∈ steps → size = content.length
  content : ∀ name bytes, ⟨.readClaimed name, .ok bytes⟩ ∈ steps → bytes = content
  workspace : ∀ relativePath path, ⟨.resolveWorkspace relativePath, .ok path⟩ ∈ steps →
    ∃ place, ws.locate depth relativePath = .ok place

-- What an action needs of the document and of the workspace.
def Performable (task : Json) (action : TaskAction) : Prop :=
  (action ≠ .healthSnapshot → ∃ place, ws.workspaceFile depth (taskGet "relative_path" task) = .ok place) ∧
    (action = .verifySha256 → ∃ expected, expectedSha256 (taskGet "expected_sha256" task) = .ok expected)

-- What can be executed as the task of this id.
def Executable (taskId : PyStr) : Prop :=
  content.length ≤ maxTaskBytes ∧ ∃ task envelope, readTask cfg.rt content = .ok task ∧
    validateTaskEnvelope task taskId = .ok envelope ∧ Performable ws depth task envelope.action

-- The document gives this as its id.
def DocumentId (taskId : PyStr) : Prop :=
  ∃ task, readTask cfg.rt content = .ok task ∧ taskGet "task_id" task = some (.str taskId)

namespace TaskCall

variable {cfg}

-- The call of `claim_one` that has moved the file.
def Claimed (f : TaskFile) (c : TaskCall cfg) : Prop :=
  c.op = .claimOne ∧ ∃ target, ⟨.rename ⟨.pending, f.val⟩ ⟨.processing, target⟩, .ok ()⟩ ∈ c.steps

-- A call of `atomic_result` that has come to creating the file.
def Creates (taskId : PyStr) (c : TaskCall cfg) : Prop :=
  (∃ payload, c.op.writes = some (taskId, payload)) ∧ ∃ r, ⟨.createResult taskId, r⟩ ∈ c.steps

end TaskCall

namespace Task

variable {cfg} (t : Task cfg)

def Claims (f : TaskFile) : Prop := ∃ c ∈ t.calls, TaskCall.Claimed f c

-- The call has claimed the file, and the document in it is this.
def Handles (f : TaskFile) : Prop := t.Claims f ∧ ∀ c ∈ t.calls, Sees ws depth content c.steps

def Completes : Prop := ∃ c ∈ t.calls, TaskCall.Wrote "COMPLETED" c

def Creates (taskId : PyStr) : Prop := ∃ c ∈ t.calls, TaskCall.Creates taskId c

end Task

variable {cfg ws depth content}

-- What is called for a claimed file.
structure Working (claimed : PyStr) (op : TaskOp) : Prop where
  claim : op ≠ .claimOne
  writes : ∀ taskId payload, op.writes = some (taskId, payload) → taskId = taskIdOf claimed

theorem working_call (claimed : PyStr) (op : TaskOp) (hclaim : op ≠ .claimOne) (hwrites : op.writes = none) :
    (call op).Emits (Called WorkerAns (body cfg)) fun c => Working claimed c.op :=
  emits_op (Working claimed) op ⟨hclaim, fun taskId payload h => by simp [hwrites] at h⟩

theorem working_write (claimed : PyStr) (payload : Fields) :
    (call (.atomicResult (taskIdOf claimed) payload)).Emits (Called WorkerAns (body cfg))
      fun c => Working claimed c.op :=
  emits_op (Working claimed) _ ⟨by simp, fun _ _ h => (Prod.mk.inj (Option.some.inj h)).1.symm⟩

theorem complete_working (claimed : PyStr) :
    (complete cfg claimed).Emits (Called WorkerAns (body cfg)) fun c => Working claimed c.op := by
  have hquiet := @working_call cfg claimed
  refine Prog.Emits.bind ?_ fun result => ?_
  · refine (hquiet _ (by simp) rfl).bind fun now => (hquiet _ (by simp) rfl).bind fun _ =>
      (hquiet (.sys (.statClaimed claimed)) (by simp) rfl).bind fun size => ?_
    split
    · exact Prog.emits_raise _
    · refine (hquiet (.sys (.readClaimed claimed)) (by simp) rfl).bind fun content =>
        (Prog.emits_ofExcept _).bind fun task => (Prog.emits_ofExcept _).bind fun envelope => ?_
      exact (hquiet _ (by simp) rfl).bind fun now => (hquiet _ (by simp) rfl).bind fun _ => hquiet _ (by simp) rfl
  · exact (working_write claimed _).bind fun _ => (hquiet _ (by simp) rfl).bind fun now =>
      (hquiet _ (by simp) rfl).bind fun _ => hquiet _ (by simp) rfl

theorem recordFailure_working (claimed : PyStr) (e : PyExc) :
    (recordFailure claimed e).Emits (Called WorkerAns (body cfg)) fun c => Working claimed c.op := by
  have hquiet := @working_call cfg claimed
  have hmove : (moveToFailed claimed).Emits (Called WorkerAns (body cfg)) fun c => Working claimed c.op := by
    refine (hquiet _ (by simp) rfl).catching fun e => ?_
    split
    · exact Prog.emits_ret _
    · exact Prog.emits_raise _
  refine (hquiet _ (by simp) rfl).bind fun now =>
    ((working_write claimed _).catching fun _ => Prog.emits_ret _).bind fun _ => Prog.Emits.finishing ?_ hmove
  exact (hquiet _ (by simp) rfl).bind fun now => hquiet _ (by simp) rfl

-- The call for a claimed file.
theorem claims_runs (t : Task cfg) (f : TaskFile) (h : t.Claims f) :
    ∃ claimed first rest r, taskIdOf claimed = f.head ∧ t.calls = first :: rest ∧ first.op = .claimOne ∧
      (Prog.catching (recordFailure claimed) (complete cfg claimed)).Runs (Called WorkerAns (body cfg)) rest r := by
  obtain ⟨calls, outcome, runs⟩ := t
  obtain ⟨c, hc, hop, target, hrename⟩ := h
  dsimp only at hc ⊢
  have hclaimed : ∀ steps r (run : (body cfg .claimOne).Runs WorkerAns steps r)
      (hsame : c = ⟨.claimOne, steps, r, run⟩),
      r = .ok (some target) ∧ ∃ u, target = claimName cfg f.val u := by
    rintro steps r run rfl
    exact claimOne_renames steps r run f.val target hrename
  rcases (Prog.runs_bind _ _ _ _).mp runs with ⟨claimed, _, rest, rfl, hclaim, hrest⟩ | ⟨e, rfl, hclaim⟩
  · obtain ⟨steps, run, rfl⟩ := runs_call _ _ _ hclaim
    cases claimed with
    | none =>
        obtain ⟨rfl, -⟩ := (Prog.runs_ret _ _ _).mp hrest
        obtain ⟨hr, -⟩ := hclaimed steps _ run (List.mem_singleton.mp hc)
        cases hr
    | some claimed =>
        obtain ⟨r, htask⟩ : ∃ r, (Prog.catching (recordFailure claimed) (complete cfg claimed)).Runs
            (Called WorkerAns (body cfg)) rest r := by
          rcases (Prog.runs_bind _ _ _ _).mp hrest with ⟨_, task, last, rfl, htask, hlast⟩ | ⟨e, rfl, htask⟩
          · obtain ⟨rfl, -⟩ := (Prog.runs_ret _ _ _).mp hlast
            rw [List.append_nil]
            exact ⟨_, htask⟩
          · exact ⟨_, htask⟩
        have hworking := (complete_working claimed).catching (recordFailure_working claimed) _ _ htask
        rcases List.mem_cons.mp hc with hfirst | hlater
        · obtain ⟨hr, u, rfl⟩ := hclaimed steps _ run hfirst
          obtain rfl := Option.some.inj (Except.ok.inj hr)
          exact ⟨_, _, rest, r, taskIdOf_claimName f u, rfl, rfl, htask⟩
        · exact absurd hop (hworking c hlater).claim
  · obtain ⟨steps, run, rfl⟩ := runs_call _ _ _ hclaim
    obtain ⟨hr, -⟩ := hclaimed steps _ run (List.mem_singleton.mp hc)
    cases hr

-- What has been executed can be executed.
theorem executeTask_ok (task : Json) (taskId : PyStr) (steps : List WorkerStep) (result : TaskResult)
    (h : (executeTask cfg task taskId).Runs WorkerAns steps (.ok result)) (hsees : Sees ws depth content steps) :
    ∃ envelope, validateTaskEnvelope task taskId = .ok envelope ∧ Performable ws depth task envelope.action := by
  obtain ⟨envelope, _, _, rfl, hvalid, hclock⟩ := (Prog.runs_bind_ok _ _ _ _).mp h
  refine ⟨envelope, ((Prog.runs_ofExcept _ _ _).mp hvalid).2.symm, ?_⟩
  obtain ⟨now, _, _, rfl, -, haction⟩ := (Prog.runs_bind_ok _ _ _ _).mp hclock
  by_cases hhealth : envelope.action = .healthSnapshot
  · exact ⟨fun hne => absurd hhealth hne, fun hverify => by rw [hhealth] at hverify; cases hverify⟩
  · rw [if_neg hhealth] at haction
    obtain ⟨relativePath, _, _, rfl, hrequire, hlocate⟩ := (Prog.runs_bind_ok _ _ _ _).mp haction
    obtain ⟨path, _, _, rfl, hresolve, hread⟩ := (Prog.runs_bind_ok _ _ _ _).mp hlocate
    obtain ⟨bytes, _, _, rfl, -, hfinding⟩ := (Prog.runs_bind_ok _ _ _ _).mp hread
    obtain ⟨finding, _, _, rfl, hcompare, -⟩ := (Prog.runs_bind_ok _ _ _ _).mp hfinding
    obtain ⟨place, hplace⟩ := hsees.workspace relativePath path (by simp [runs_op _ _ _ hresolve])
    have hrequired := ((Prog.runs_ofExcept _ _ _).mp hrequire).2
    have hcompared := ((Prog.runs_ofExcept _ _ _).mp hcompare).2
    refine ⟨fun _ => ⟨place, (bind_eq_ok _ _ _).mpr ⟨relativePath, hrequired.symm, hplace⟩⟩, fun hverify => ?_⟩
    unfold compareFile at hcompared
    rw [hverify] at hcompared
    obtain ⟨expected, hexpected, -⟩ := (bind_eq_ok _ _ _).mp hcompared.symm
    exact ⟨expected, hexpected⟩

theorem sys_step (op : WorkerOp) (steps : List WorkerStep) (r : Except PyExc op.Res)
    (h : (body cfg (.sys op)).Runs WorkerAns steps r) : ⟨op, r⟩ ∈ steps := by
  rw [runs_op op steps r h]
  exact List.mem_singleton_self _

theorem prepare_ok (claimed : PyStr) (calls : List (TaskCall cfg)) (result : TaskResult)
    (h : (prepare cfg claimed).Runs (Called WorkerAns (body cfg)) calls (.ok result))
    (hsees : ∀ c ∈ calls, Sees ws depth content c.steps) : Executable cfg ws depth content (taskIdOf claimed) := by
  obtain ⟨_, _, _, rfl, -, hclaimed⟩ := (Prog.runs_bind_ok _ _ _ _).mp h
  obtain ⟨_, _, _, rfl, -, hsize⟩ := (Prog.runs_bind_ok _ _ _ _).mp hclaimed
  obtain ⟨size, _, _, rfl, hstat, hrest⟩ := (Prog.runs_bind_ok _ _ _ _).mp hsize
  obtain ⟨statSteps, statRuns, rfl⟩ := runs_call _ _ _ hstat
  have hlength : size = content.length :=
    (hsees ⟨.sys (.statClaimed claimed), statSteps, _, statRuns⟩ (by simp)).size claimed size (sys_step _ _ _ statRuns)
  by_cases hlarge : maxTaskBytes < size
  · rw [if_pos hlarge] at hrest
    obtain ⟨-, hraised⟩ := (Prog.runs_raise _ _ _).mp hrest
    cases hraised
  · rw [if_neg hlarge] at hrest
    obtain ⟨bytes, _, _, rfl, hread, hloads⟩ := (Prog.runs_bind_ok _ _ _ _).mp hrest
    obtain ⟨readSteps, readRuns, rfl⟩ := runs_call _ _ _ hread
    have hbytes : bytes = content := (hsees ⟨.sys (.readClaimed claimed), readSteps, _, readRuns⟩ (by simp)).content
      claimed bytes (sys_step _ _ _ readRuns)
    obtain ⟨task, _, _, rfl, htask, hvalidate⟩ := (Prog.runs_bind_ok _ _ _ _).mp hloads
    obtain ⟨_, _, _, rfl, -, hclock⟩ := (Prog.runs_bind_ok _ _ _ _).mp hvalidate
    obtain ⟨_, _, _, rfl, -, hstarted⟩ := (Prog.runs_bind_ok _ _ _ _).mp hclock
    obtain ⟨_, _, _, rfl, -, hexecute⟩ := (Prog.runs_bind_ok _ _ _ _).mp hstarted
    obtain ⟨steps, runs, rfl⟩ := runs_call _ _ _ hexecute
    obtain ⟨envelope, hvalid, hperformable⟩ := executeTask_ok task _ steps result runs
      (hsees ⟨.executeTask task (taskIdOf claimed), steps, _, runs⟩ (by simp))
    have htask := ((Prog.runs_ofExcept _ _ _).mp htask).2
    rw [hbytes] at htask
    exact ⟨by omega, task, envelope, htask.symm, hvalid, hperformable⟩

theorem executable_of_completes (t : Task cfg) (f : TaskFile) (h : t.Handles ws depth content f)
    (hcompletes : t.Completes) : Executable cfg ws depth content f.head := by
  obtain ⟨claimed, first, rest, r, hid, hcalls, hfirst, hrun⟩ := claims_runs t f h.1
  have hsees : ∀ c ∈ rest, Sees ws depth content c.steps := fun c hc => h.2 c (hcalls ▸ List.mem_cons_of_mem first hc)
  obtain ⟨c, hc, hwrote⟩ := hcompletes
  rw [hcalls] at hc
  have hmem : c ∈ rest := by
    refine (List.mem_cons.mp hc).resolve_left ?_
    rintro rfl
    obtain ⟨taskId, payload, hwrites, -⟩ := hwrote
    rw [hfirst] at hwrites
    cases hwrites
  have hprepared : ∀ calls r, (complete cfg claimed).Runs (Called WorkerAns (body cfg)) calls r → c ∈ calls →
      (∀ c ∈ calls, Sees ws depth content c.steps) → Executable cfg ws depth content (taskIdOf claimed) := by
    intro calls r hrun hc hsees
    rcases (Prog.runs_bind _ _ _ _).mp hrun with ⟨result, before, after, rfl, hprepare, -⟩ | ⟨e, -, hprepare⟩
    · exact prepare_ok claimed before result hprepare fun c hc => hsees c (List.mem_append_left after hc)
    · exact absurd hwrote (not_wrote c (.inl (prepare_preparing claimed calls _ hprepare c hc)))
  rw [← hid]
  rcases (Prog.runs_catching _ _ _ _).mp hrun with ⟨_, rfl, hcomplete⟩ | ⟨e, before, failing, rfl, hcomplete, hfail⟩
  · exact hprepared rest _ hcomplete hmem hsees
  · rcases List.mem_append.mp hmem with hbefore | hfailing
    · exact hprepared before _ hcomplete hbefore fun c hc => hsees c (List.mem_append_left failing hc)
    · exact absurd hwrote (not_wrote c (.inr (recordFailure_failing claimed e failing _ hfail c hfailing)))

end Runs

end V91Core.Worker
