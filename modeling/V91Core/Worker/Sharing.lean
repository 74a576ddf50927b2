import V91Core.Effect.Within
import V91Core.Worker.Claiming
import V91Core.Worker.Correspondence

namespace V91Core.Worker

open V91Core.Python V91Core.Effect V91Core.Audit

variable {ι : Type}

-- The operation succeeds if the directories allow it, and what is read is what is there.
def Smooth (w : World) (s : Shared ι) : (op : WorkerOp) → Except PyExc op.Res → Prop
  | .audit .createLock, r => s.lock = none → r = .ok ()
  | .audit .unlinkLock, r => s.lock ≠ none → r = .ok ()
  | .rename source _, r => s.queue source ≠ none → r = .ok ()
  | .statClaimed name, r => ∀ d, s.queue ⟨.processing, name⟩ = some d → r = .ok (w.content d).length
  | .readClaimed name, r => ∀ d, s.queue ⟨.processing, name⟩ = some d → r = .ok (w.content d)
  | .resolveWorkspace path, r => r = w.resolve path
  | .readWorkspace path, r => r = w.read path
  | .createResult taskId, r => s.results taskId = none → r = .ok ()
  | .unlinkResult taskId, r => s.results taskId ≠ none → r = .ok ()
  | _, r => ∃ b, r = .ok b

variable [DecidableEq ι]

-- Nothing fails for this worker but what the others make impossible. For the others anything may fail.
def sharing (w : World) (i : ι) : System ι (Shared ι) WorkerOp WorkerOp.Res PyExc :=
  system.limit fun j s op r => j = i → Smooth w s op r

def markedSharing (w : World) (i : ι) : System ι (Shared ι) MarkedOp (MarkedRes WorkerOp.Res) PyExc :=
  (sharing w i).marked note

-- The file is in `done`, and the result of the task says that it is completed.
def Completed (rt : Runtime) (taskId : PyStr) (d : Inode) (s : Shared ι) : Prop :=
  (∃ name, s.queue ⟨.done, name⟩ = some d) ∧ ∃ n file payload, s.results taskId = some n ∧ s.files n = some file ∧
    encodedResult rt payload = .ok file.content ∧ statusIs "COMPLETED" payload

-- The worker has ended, and this is a file that it has claimed.
def Processed (i : ι) (d : Inode) (p : Pool ι (Shared ι) MarkedOp (MarkedRes WorkerOp.Res) PyExc Unit) : Prop :=
  p.procs i = .ret () ∧ ∃ name, ⟨i, d, name⟩ ∈ p.shared.claims

-- The worker completes the file in some run of its own.
def CompletesAlone (w : World) (cfg : ι → Config) (layout : Layout) (i : ι) (taskId : PyStr) (d : Inode) : Prop :=
  ∃ p, (markedSharing w i).Reach (start cfg (Function.update (fun _ => 0) i 1) layout) p ∧ Processed i d p ∧
    Completed (cfg i).rt taskId d p.shared

-- What the worker finds out about the file of a task.
def inspect (w : World) (cfg : Config) (task : Json) (action : TaskAction) : Except PyExc Finding := do
  let relativePath ← requirePath (taskGet "relative_path" task)
  let path ← w.resolve relativePath
  let content ← w.read path
  compareFile cfg task action relativePath content

-- The document can be carried out as this task, and what comes of it can be written down.
structure Feasible (w : World) (cfg : Config) (layout : Layout) (taskId : PyStr) (d : Inode) : Prop where
  size : (w.content d).length ≤ maxTaskBytes
  nesting : 1 < cfg.rt.nesting
  fresh : layout.results taskId = none
  executable : ∃ task envelope, readTask cfg.rt (w.content d) = .ok task ∧
    validateTaskEnvelope task taskId = .ok envelope ∧ (envelope.action ≠ .healthSnapshot →
      ∃ finding, inspect w cfg task envelope.action = .ok finding ∧
        ∀ g ∈ finding.fields, Json.Fits false cfg.rt.nesting g.2)

section Serialised

variable (rt : Runtime)

theorem mapM_eq_ok_mem {α β ε : Type} (f : α → Except ε β) (as : List α) (bs : List β) (h : as.mapM f = .ok bs) :
    ∀ a ∈ as, ∃ b, f a = .ok b := by
  induction as generalizing bs with
  | nil => simp
  | cons a as ih =>
      rw [List.mapM_cons] at h
      obtain ⟨b, hb, h⟩ := (bind_eq_ok _ _ _).mp h
      obtain ⟨rest, hrest, -⟩ := (bind_eq_ok _ _ _).mp h
      exact List.forall_mem_cons.mpr ⟨⟨b, hb⟩, ih rest hrest⟩

theorem encodedResult_isOk_iff (payload : Fields) :
    (∃ content, encodedResult rt payload = .ok content) ↔ ∀ f ∈ payload, Json.Fits false rt.nesting f.2 := by
  refine ⟨fun ⟨content, h⟩ f hf => ?_, encodedResult_isOk rt payload⟩
  obtain ⟨members, hmembers, -⟩ := (bind_eq_ok _ _ _).mp h
  obtain ⟨text, htext⟩ := mapM_eq_ok_mem _ _ members hmembers f ((Json.sortKeys_perm payload).mem_iff.mpr hf)
  obtain ⟨value, hvalue, -⟩ := (bind_eq_ok _ _ _).mp htext
  exact (Json.encode_isOk_iff resultStyle rt.nesting f.2).mp ⟨value, (dumps_eq_ok _ _ _ _).mp hvalue⟩

theorem eventLine_isOk_iff (event : Json) :
    (∃ line, eventLine rt event = .ok line) ↔ Json.Fits false rt.nesting event := by
  refine ⟨fun ⟨line, h⟩ => ?_, eventLine_isOk rt event⟩
  obtain ⟨text, htext, -⟩ := (bind_eq_ok _ _ _).mp h
  exact (Json.encode_isOk_iff eventStyle rt.nesting event).mp ⟨text, (dumps_eq_ok _ _ _ _).mp htext⟩

-- A value that holds no others.
def Flat (j : Json) : Prop := ∀ limit limit', Json.Fits false limit j → Json.Fits false limit' j

theorem flat_result (r : TaskResult) : ∀ g ∈ r.fields, Flat g.2 := by
  have hstr : ∀ text : PyStr, Flat (.str text) := fun _ _ _ _ => trivial
  obtain ⟨taskId, envelope, timestamp, finding⟩ := r
  refine List.forall_mem_append.mpr ⟨?_, ?_⟩
  · simp only [label, List.forall_mem_cons, List.not_mem_nil, false_imp_iff, implies_true, hstr, and_self]
  · cases finding with
    | health workerId uptime pending processing =>
        simp only [Finding.fields, label, entry, List.forall_mem_cons, List.not_mem_nil, false_imp_iff,
          implies_true, hstr, true_and, and_true]
        exact ⟨fun _ _ h => h, fun _ _ h => h, fun _ _ h => h⟩
    | digest relativePath sha256 size =>
        simp only [Finding.fields, fileFields, label, entry, List.forall_mem_cons, List.not_mem_nil, false_imp_iff,
          implies_true, hstr, true_and, and_true]
        exact fun _ _ h => h
    | verification relativePath sha256 size matchesExpected =>
        simp only [Finding.fields, fileFields, label, entry, List.cons_append, List.nil_append, List.forall_mem_cons,
          List.not_mem_nil, false_imp_iff, implies_true, hstr, true_and, and_true]
        exact ⟨fun _ _ h => h, fun _ _ h => h⟩

theorem fits_count (n : FileCount) (limit : Nat) : Json.Fits false limit (.int n.val) := by
  have hlength : (natText n.val).length ≤ 19 := by
    rw [natText, List.length_map, Nat.length_toDigits_le_iff (by decide) (by decide)]
    exact lt_of_lt_of_le n.property (by decide)
  exact hlength.trans (by decide)

theorem fits_health (workerId : PyStr) (uptime : Uptime) (pending processing : FileCount) (limit : Nat) :
    ∀ g ∈ (Finding.health workerId uptime pending processing).fields, Json.Fits false limit g.2 := by
  simp only [Finding.fields, label, entry, List.forall_mem_cons, List.not_mem_nil, false_imp_iff,
    implies_true, and_true]
  exact ⟨trivial, trivial, .inr uptime.property, fits_count pending limit, fits_count processing limit⟩

theorem fits_get (r : TaskResult) (limit : Nat) (h : ∀ g ∈ r.fields, Json.Fits false limit g.2) (key : String) :
    Json.Fits false limit (r.get key) := by
  rw [TaskResult.get]
  cases hlookup : Json.lookup (py key) r.fields with
  | none => trivial
  | some value => exact h _ (Json.mem_of_lookup _ _ _ hlookup)

-- The summary lies one level deeper than the event.
theorem completedEvent_isOk_iff (taskId : PyStr) (r : TaskResult) (now : UtcTime)
    (h : ∀ g ∈ r.fields, Json.Fits false rt.nesting g.2) :
    (∃ line, eventLine rt (.obj (completedEvent taskId r now)) = .ok line) ↔ 1 < rt.nesting := by
  have hflat : ∀ limit, ∀ g ∈ r.fields, Json.Fits false limit g.2 :=
    fun limit g hg => flat_result r g hg _ limit (h g hg)
  rw [eventLine_isOk_iff, Json.Fits, Json.fitsFields_iff]
  constructor
  · rintro ⟨hpos, hfields⟩
    have hsummary := hfields (entry "result_summary" (.obj r.summary)) (by simp [completedEvent])
    rw [entry, Json.Fits] at hsummary
    omega
  · intro hnesting
    refine ⟨by omega, ?_⟩
    have hsummary : Json.Fits false (rt.nesting - 1) (.obj r.summary) := by
      refine ⟨by omega, (Json.fitsFields_iff _ _ _).mpr fun g hg => ?_⟩
      obtain ⟨key, -, hkey⟩ := List.mem_filterMap.mp hg
      obtain ⟨value, hvalue, rfl⟩ := Option.map_eq_some_iff.mp hkey
      exact hflat _ _ (Json.mem_of_lookup _ _ _ hvalue)
    have hget := fits_get r _ (hflat (rt.nesting - 1))
    simp only [completedEvent, label, entry, List.forall_mem_cons, List.not_mem_nil, false_imp_iff,
      implies_true, and_true]
    exact ⟨trivial, trivial, trivial, trivial, trivial, hget "status", hget "action", hsummary⟩

end Serialised

end V91Core.Worker
