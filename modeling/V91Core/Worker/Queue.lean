import V91Core.Effect.Driver
import V91Core.Effect.Marked
import V91Core.Worker.Agreement

namespace V91Core.Worker

open V91Core.Python V91Core.Effect V91Core.Audit

-- A file, which stays the same when it is renamed.
abbrev Inode := Nat

-- `maker` is the worker that created the file, if a worker did.
structure ResultFile (ι : Type) where
  maker : Option ι
  content : Bytes

-- A worker has taken a file out of `pending` and given it this name.
structure Claim (ι : Type) where
  worker : ι
  file : Inode
  name : PyStr
deriving DecidableEq

-- The directories that the workers share. `handle` is the result file that a worker
-- has opened, and `lock` the worker whose lock of the audit log exists. The
-- identifiers in `earlier` were drawn before the workers started. `maker`, `drawn`,
-- `claims`, `refused` and `returned` record what has happened: who made a result,
-- who drew an identifier, who claimed a file, who found the audit log locked and
-- which results were returned. No worker reads them.
structure Shared (ι : Type) where
  queue : Place → Option Inode
  results : PyStr → Option Inode
  files : Inode → Option (ResultFile ι)
  handle : ι → Option Inode
  lock : Option ι
  earlier : UuidHex → Bool
  drawn : UuidHex → Option ι
  claims : List (Claim ι)
  refused : List ι
  returned : List PyStr

variable {ι : Type}

-- The name ends with this identifier.
def Bears (u : UuidHex) (name : PyStr) : Prop := u.val ++ py ".json" <:+ name

-- The operations that leave the directories as they are.
def WorkerOp.quiet : WorkerOp → Bool
  | .audit .createLock | .audit .unlinkLock | .uuid4 | .rename _ _ | .createResult _ | .openResult _ | .writeResult _ _
  | .syncResult _ | .closeResult _ | .unlinkResult _ => false
  | _ => true

-- The operations on an open result file.
def WorkerOp.onHandle : WorkerOp → Bool
  | .openResult _ | .writeResult _ _ | .syncResult _ | .closeResult _ => true
  | _ => false

namespace Shared

variable (s : Shared ι) (i : ι)

def Unused (u : UuidHex) : Prop := s.drawn u = none ∧ s.earlier u = false

-- `os.rename`. What was at the target is gone.
def move (source target : Place) (d : Inode) : Shared ι :=
  { s with
    queue := Function.update (Function.update s.queue source none) target (some d)
    claims := if source.dir = .pending then ⟨i, d, target.name⟩ :: s.claims else s.claims }

-- The open result file of the worker gets this content.
def fill (content : Bytes → Bytes) : Shared ι :=
  match s.handle i with
  | none => s
  | some n =>
      { s with files := Function.update s.files n ((s.files n).map fun f => { f with content := content f.content }) }

def unlink (taskId : PyStr) : Shared ι := { s with results := Function.update s.results taskId none }

-- A document arrives.
def submit (name : PyStr) (d : Inode) : Shared ι :=
  { s with queue := Function.update s.queue ⟨.pending, name⟩ (some d) }

theorem queue_move (source target : Place) (d : Inode) (place : Place) :
    (s.move i source target d).queue place =
      if place = target then some d else if place = source then none else s.queue place := by
  simp only [move, Function.update_apply]

theorem results_unlink (taskId t : PyStr) :
    (s.unlink taskId).results t = if t = taskId then none else s.results t := Function.update_apply _ _ _ _

theorem queue_submit (name : PyStr) (d : Inode) (place : Place) :
    (s.submit name d).queue place = if place = ⟨.pending, name⟩ then some d else s.queue place :=
  Function.update_apply _ _ _ _

theorem fill_none (content : Bytes → Bytes) (h : s.handle i = none) : s.fill i content = s := by
  rw [fill, h]

theorem fill_some (content : Bytes → Bytes) (n : Inode) (f : ResultFile ι) (h : s.handle i = some n)
    (hf : s.files n = some f) :
    s.fill i content =
      { s with files := Function.update s.files n (some { f with content := content f.content }) } := by
  simp only [fill, h, hf, Option.map_some]

variable [DecidableEq ι]

def create (taskId : PyStr) (n : Inode) : Shared ι :=
  { s with
    results := Function.update s.results taskId (some n)
    files := Function.update s.files n (some ⟨some i, []⟩)
    handle := Function.update s.handle i (some n) }

def close : Shared ι := { s with handle := Function.update s.handle i none }

theorem results_create (taskId : PyStr) (n : Inode) (t : PyStr) :
    (s.create i taskId n).results t = if t = taskId then some n else s.results t := Function.update_apply _ _ _ _

theorem files_create (taskId : PyStr) (n m : Inode) :
    (s.create i taskId n).files m = if m = n then some ⟨some i, []⟩ else s.files m := Function.update_apply _ _ _ _

theorem handle_create (taskId : PyStr) (n : Inode) (j : ι) :
    (s.create i taskId n).handle j = if j = i then some n else s.handle j := Function.update_apply _ _ _ _

theorem handle_close (j : ι) : (s.close i).handle j = if j = i then none else s.handle j :=
  Function.update_apply _ _ _ _

end Shared

variable [DecidableEq ι]

-- What is read may be out of date. Every operation may fail and then changes
-- nothing, but one on an open file may leave that file with any content.
inductive Exec (i : ι) : Shared ι → (op : WorkerOp) → Except PyExc op.Res → Shared ι → Prop
  | quiet (s : Shared ι) (op : WorkerOp) (r : Except PyExc op.Res) (hop : op.quiet = true) : Exec i s op r s
  | fails (s : Shared ι) (op : WorkerOp) (e : PyExc) (hfree : op = .audit .createLock → s.lock = none) :
      Exec i s op (.error e) s
  | breaks (s : Shared ι) (op : WorkerOp) (e : PyExc) (content : Bytes → Bytes) (hop : op.onHandle = true) :
      Exec i s op (.error e) (s.fill i content)
  | createLock (s : Shared ι) (hlock : s.lock = none) : Exec i s (.audit .createLock) (.ok ()) { s with lock := some i }
  | refused (s : Shared ι) (j : ι) (hlock : s.lock = some j) (e : PyExc) :
      Exec i s (.audit .createLock) (.error e) { s with refused := i :: s.refused }
  | unlinkLock (s : Shared ι) (j : ι) (hlock : s.lock = some j) :
      Exec i s (.audit .unlinkLock) (.ok ()) { s with lock := none }
  | uuid4 (s : Shared ι) (u : UuidHex) (hunused : s.Unused u) :
      Exec i s .uuid4 (.ok u) { s with drawn := Function.update s.drawn u (some i) }
  | rename (s : Shared ι) (source target : Place) (d : Inode) (hsource : s.queue source = some d) :
      Exec i s (.rename source target) (.ok ()) (s.move i source target d)
  | createResult (s : Shared ι) (taskId : PyStr) (n : Inode) (hfree : s.results taskId = none)
      (hnew : s.files n = none) : Exec i s (.createResult taskId) (.ok ()) (s.create i taskId n)
  | openResult (s : Shared ι) (taskId : PyStr) : Exec i s (.openResult taskId) (.ok ()) s
  | writeResult (s : Shared ι) (taskId : PyStr) (content : Bytes) :
      Exec i s (.writeResult taskId content) (.ok ()) (s.fill i (· ++ content))
  | syncResult (s : Shared ι) (taskId : PyStr) : Exec i s (.syncResult taskId) (.ok ()) s
  | closeResult (s : Shared ι) (taskId : PyStr) : Exec i s (.closeResult taskId) (.ok ()) (s.close i)
  | unlinkResult (s : Shared ι) (taskId : PyStr) (n : Inode) (hfound : s.results taskId = some n) :
      Exec i s (.unlinkResult taskId) (.ok ()) (s.unlink taskId)

-- Documents are put where no document is.
inductive Submits : Shared ι → Shared ι → Prop
  | submit (s : Shared ι) (name : PyStr) (d : Inode) (hfree : s.queue ⟨.pending, name⟩ = none)
      (hnew : ∀ place, s.queue place ≠ some d) : Submits s (s.submit name d)

def system : System ι (Shared ι) WorkerOp WorkerOp.Res PyExc where
  exec := Exec
  env := Submits

-- A return of `atomic_result` is noted.
def note (_ : ι) (s : Shared ι) (c : TaskOp) (answer : Except PyExc c.Res) : Shared ι :=
  match c, answer with
  | .atomicResult taskId _, .ok _ => { s with returned := taskId :: s.returned }
  | _, _ => s

abbrev MarkedOp := Marked WorkerOp TaskOp TaskOp.Res PyExc

def markedSystem : System ι (Shared ι) MarkedOp (MarkedRes WorkerOp.Res) PyExc := system.marked note

-- The rounds of `main`. An exception of a round is only printed.
def work (cfg : Config) : Nat → Calls Unit
  | 0 => .ret ()
  | n + 1 => do
      let _ ← (processOne cfg).attempt
      work cfg n

-- The directories before the workers start. A file is at one place, and the names
-- outside of `pending` bear identifiers that have been drawn.
structure Layout where
  queue : Place → Option Inode
  single : ∀ p q d, queue p = some d → queue q = some d → p = q
  results : PyStr → Option Inode
  files : Inode → Option Bytes
  distinct : ∀ t t' n, results t = some n → results t' = some n → t = t'
  present : ∀ t n, results t = some n → (files n).isSome = true
  earlier : UuidHex → Bool
  named : ∀ u (place : Place), place.dir ≠ .pending → Bears u place.name → queue place ≠ none → earlier u = true

def Layout.shared (layout : Layout) : Shared ι where
  queue := layout.queue
  results := layout.results
  files n := (layout.files n).map fun content => ⟨none, content⟩
  handle _ := none
  lock := none
  earlier := layout.earlier
  drawn _ := none
  claims := []
  refused := []
  returned := []

-- Any number of workers that run `main` for any number of rounds.
def start (cfg : ι → Config) (rounds : ι → Nat) (layout : Layout) :
    Pool ι (Shared ι) MarkedOp (MarkedRes WorkerOp.Res) PyExc Unit :=
  ⟨layout.shared, fun i => (work (cfg i) (rounds i)).expand (Prog.marked (body (cfg i)))⟩

omit [DecidableEq ι] in
-- Without the reports of returns a worker is the program of the source.
theorem start_erase (cfg : ι → Config) (rounds : ι → Nat) (layout : Layout) (i : ι) :
    ((start cfg rounds layout).procs i).erase = (work (cfg i) (rounds i)).expand (body (cfg i)) :=
  Prog.erase_expand (body (cfg i)) (work (cfg i) (rounds i))

-- What the workers find: the documents and the workspace.
structure World where
  content : Inode → Bytes
  resolve : PyStr → Except PyExc PyStr
  read : PyStr → Except PyExc Bytes

-- The names that are looked for, and what is new.
structure Supply where
  names : List PyStr
  uuids : List UuidHex
  inodes : List Inode

section Reply

variable (w : World) (supply : Supply) (i : ι) (s : Shared ι)

-- Every operation succeeds whenever it can.
def reply : (op : WorkerOp) → Option (Except PyExc op.Res × Shared ι)
  | .audit .utcNow => some (.ok sampleTime, s)
  | .audit .createLock =>
      match s.lock with
      | none => some (.ok (), { s with lock := some i })
      | some _ => some (.error .fileExists, { s with refused := i :: s.refused })
  | .audit .unlinkLock =>
      match s.lock with
      | none => some (.error .fileNotFound, s)
      | some _ => some (.ok (), { s with lock := none })
  | .audit .makeParent => some (.ok (), s)
  | .audit (.writeLock _) => some (.ok (), s)
  | .audit .syncLock => some (.ok (), s)
  | .audit .openLog => some (.ok (), s)
  | .audit (.writeLine _) => some (.ok (), s)
  | .audit .syncLog => some (.ok (), s)
  | .audit .closeLog => some (.ok (), s)
  | .audit .closeLock => some (.ok (), s)
  | .utcNow => some (.ok sampleTime, s)
  | .uptime => some (.ok sampleUptime, s)
  | .uuid4 =>
      (supply.uuids.find? fun u => (s.drawn u).isNone && !s.earlier u).map fun u =>
        (.ok u, { s with drawn := Function.update s.drawn u (some i) })
  | .listPending => some (.ok (supply.names.filter fun name => (s.queue ⟨.pending, name⟩).isSome), s)
  | .countFiles _ => some (.ok sampleCount, s)
  | .rename source target =>
      match s.queue source with
      | none => some (.error .fileNotFound, s)
      | some d => some (.ok (), s.move i source target d)
  | .statClaimed name =>
      match s.queue ⟨.processing, name⟩ with
      | none => some (.error .fileNotFound, s)
      | some d => some (.ok (w.content d).length, s)
  | .readClaimed name =>
      match s.queue ⟨.processing, name⟩ with
      | none => some (.error .fileNotFound, s)
      | some d => some (.ok (w.content d), s)
  | .resolveWorkspace path => some (w.resolve path, s)
  | .readWorkspace path => some (w.read path, s)
  | .createResult taskId =>
      match s.results taskId with
      | some _ => some (.error .fileExists, s)
      | none => (supply.inodes.find? fun n => (s.files n).isNone).map fun n => (.ok (), s.create i taskId n)
  | .openResult _ => some (.ok (), s)
  | .writeResult _ content => some (.ok (), s.fill i (· ++ content))
  | .syncResult _ => some (.ok (), s)
  | .closeResult _ => some (.ok (), s.close i)
  | .unlinkResult taskId =>
      match s.results taskId with
      | none => some (.error .fileNotFound, s)
      | some _ => some (.ok (), s.unlink taskId)

theorem reply_exec (op : WorkerOp) (r : Except PyExc op.Res) (s' : Shared ι)
    (h : reply w supply i s op = some (r, s')) : Exec i s op r s' := by
  cases op with
  | audit op =>
      cases op with
      | createLock =>
          simp only [reply] at h
          split at h
          next hlock =>
            obtain ⟨rfl, rfl⟩ := Prod.mk.inj (Option.some.inj h)
            exact .createLock s hlock
          next j hlock =>
            obtain ⟨rfl, rfl⟩ := Prod.mk.inj (Option.some.inj h)
            exact .refused s j hlock _
      | unlinkLock =>
          simp only [reply] at h
          split at h
          next hlock =>
            obtain ⟨rfl, rfl⟩ := Prod.mk.inj (Option.some.inj h)
            exact .fails s _ _ (by simp)
          next j hlock =>
            obtain ⟨rfl, rfl⟩ := Prod.mk.inj (Option.some.inj h)
            exact .unlinkLock s j hlock
      | _ =>
          obtain ⟨rfl, rfl⟩ := Prod.mk.inj (Option.some.inj h)
          exact .quiet s _ _ rfl
  | uuid4 =>
      obtain ⟨u, hu, hpair⟩ := Option.map_eq_some_iff.mp h
      obtain ⟨rfl, rfl⟩ := Prod.mk.inj hpair
      have hfound := List.find?_some hu
      simp only [Bool.and_eq_true, Option.isNone_iff_eq_none, Bool.not_eq_true'] at hfound
      exact .uuid4 s u hfound
  | rename source target =>
      simp only [reply] at h
      split at h
      next hsource =>
        obtain ⟨rfl, rfl⟩ := Prod.mk.inj (Option.some.inj h)
        exact .fails s _ _ (by simp)
      next d hsource =>
        obtain ⟨rfl, rfl⟩ := Prod.mk.inj (Option.some.inj h)
        exact .rename s source target d hsource
  | createResult taskId =>
      simp only [reply] at h
      split at h
      next n hresult =>
        obtain ⟨rfl, rfl⟩ := Prod.mk.inj (Option.some.inj h)
        exact .fails s _ _ (by simp)
      next hresult =>
        obtain ⟨n, hn, hpair⟩ := Option.map_eq_some_iff.mp h
        obtain ⟨rfl, rfl⟩ := Prod.mk.inj hpair
        have hnew := List.find?_some (p := fun n => (s.files n).isNone) hn
        exact .createResult s taskId n hresult (Option.isNone_iff_eq_none.mp hnew)
  | openResult taskId =>
      obtain ⟨rfl, rfl⟩ := Prod.mk.inj (Option.some.inj h)
      exact .openResult s taskId
  | writeResult taskId content =>
      obtain ⟨rfl, rfl⟩ := Prod.mk.inj (Option.some.inj h)
      exact .writeResult s taskId content
  | syncResult taskId =>
      obtain ⟨rfl, rfl⟩ := Prod.mk.inj (Option.some.inj h)
      exact .syncResult s taskId
  | closeResult taskId =>
      obtain ⟨rfl, rfl⟩ := Prod.mk.inj (Option.some.inj h)
      exact .closeResult s taskId
  | unlinkResult taskId =>
      simp only [reply] at h
      split at h
      next hresult =>
        obtain ⟨rfl, rfl⟩ := Prod.mk.inj (Option.some.inj h)
        exact .fails s _ _ (by simp)
      next n hresult =>
        obtain ⟨rfl, rfl⟩ := Prod.mk.inj (Option.some.inj h)
        exact .unlinkResult s taskId n hresult
  | statClaimed name =>
      simp only [reply] at h
      split at h
      · obtain ⟨rfl, rfl⟩ := Prod.mk.inj (Option.some.inj h)
        exact .quiet s _ _ rfl
      · obtain ⟨rfl, rfl⟩ := Prod.mk.inj (Option.some.inj h)
        exact .quiet s _ _ rfl
  | readClaimed name =>
      simp only [reply] at h
      split at h
      · obtain ⟨rfl, rfl⟩ := Prod.mk.inj (Option.some.inj h)
        exact .quiet s _ _ rfl
      · obtain ⟨rfl, rfl⟩ := Prod.mk.inj (Option.some.inj h)
        exact .quiet s _ _ rfl
  | _ =>
      obtain ⟨rfl, rfl⟩ := Prod.mk.inj (Option.some.inj h)
      exact .quiet s _ _ rfl

end Reply

def driver (w : World) (supply : Supply) : Driver (markedSystem (ι := ι)) where
  run i s
    | .op op => reply w supply i s op
    | .returned c answer => some (.ok (), note i s c answer)
  sound i s op r s' h := by
    cases op with
    | op op => exact reply_exec w supply i s op r s' h
    | returned c answer =>
        obtain ⟨rfl, rfl⟩ := Prod.mk.inj (Option.some.inj h)
        exact ⟨rfl, rfl⟩

end V91Core.Worker
