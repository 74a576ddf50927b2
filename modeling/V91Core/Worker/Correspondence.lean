import V91Core.Worker.TaskFile

namespace V91Core.Worker

open V91Core.Python V91Core.Effect V91Core.Audit

section Serialised

variable (rt : Runtime)

theorem isAscii_of_encode (st : Json.Style) (hst : st.ensureAscii = true) (limit : Nat) (j : Json) (text : PyStr)
    (h : Json.encode st limit j = .ok text) : isAscii text = true := by
  have hchars := Json.encode_ascii_chars (fun c => c.isAscii = true)
    (fun c hc => decide_eq_true hc) st hst limit j text h
  exact List.all_eq_true.mpr hchars

theorem eventLine_isOk (event : Json) (h : Json.Fits false rt.nesting event) :
    ∃ line, eventLine rt event = .ok line := by
  obtain ⟨text, htext⟩ := (Json.encode_isOk_iff eventStyle rt.nesting event).mpr h
  have hascii : isAscii (text ++ [cp '\n']) = true := by
    rw [isAscii, List.all_append, ← isAscii, isAscii_of_encode eventStyle rfl rt.nesting event text htext]
    decide
  obtain ⟨line, hline⟩ := encodeUtf8_of_ascii _ hascii
  exact ⟨line, (bind_eq_ok _ _ _).mpr ⟨text, (dumps_eq_ok _ _ _ _).mpr htext, hline⟩⟩

theorem mapM_isOk {α β ε : Type} (f : α → Except ε β) (P : β → Prop) (as : List α)
    (h : ∀ a ∈ as, ∃ b, f a = .ok b ∧ P b) : ∃ bs, as.mapM f = .ok bs ∧ ∀ b ∈ bs, P b := by
  induction as with
  | nil => exact ⟨[], rfl, by simp⟩
  | cons a as ih =>
      obtain ⟨b, hb, hP⟩ := h a List.mem_cons_self
      obtain ⟨bs, hbs, hPs⟩ := ih fun a' ha => h a' (List.mem_cons_of_mem a ha)
      refine ⟨b :: bs, ?_, List.forall_mem_cons.mpr ⟨hP, hPs⟩⟩
      rw [List.mapM_cons, hb, ok_bind, hbs]
      rfl

theorem encodedResult_isOk (payload : Fields) (h : ∀ f ∈ payload, Json.Fits false rt.nesting f.2) :
    ∃ content, encodedResult rt payload = .ok content := by
  have hmember : ∀ f ∈ Json.sortKeys payload, ∃ text,
      (do
        let value ← dumps rt resultStyle f.2
        return py "\n  " ++ Json.encodeString true f.1 ++ py ": " ++ value) = Except.ok text ∧
          ∀ c ∈ text, c.isAscii = true := by
    intro f hf
    have hfits := h f ((Json.sortKeys_perm payload).mem_iff.mp hf)
    obtain ⟨value, hvalue⟩ := (Json.encode_isOk_iff resultStyle rt.nesting f.2).mpr hfits
    refine ⟨_, (bind_eq_ok _ _ _).mpr ⟨value, (dumps_eq_ok _ _ _ _).mpr hvalue, rfl⟩, ?_⟩
    have hkey := isAscii_of_encode resultStyle rfl 0 (.str f.1) _ rfl
    have htext := isAscii_of_encode resultStyle rfl _ f.2 value hvalue
    have hindent : isAscii (py "\n  ") = true := by decide
    have hcolon : isAscii (py ": ") = true := by decide
    simp only [List.forall_mem_append]
    exact ⟨⟨⟨List.all_eq_true.mp hindent, List.all_eq_true.mp hkey⟩, List.all_eq_true.mp hcolon⟩,
      List.all_eq_true.mp htext⟩
  obtain ⟨members, hmembers, hascii⟩ := mapM_isOk _ (fun text : PyStr => ∀ c ∈ text, c.isAscii = true) _ hmember
  have hcomma : ∀ c ∈ py ",", c.isAscii = true := List.all_eq_true.mp (by decide)
  have hlast : ∀ c ∈ [cp '\n', cp '}', cp '\n'], c.isAscii = true := List.all_eq_true.mp (by decide)
  have hall : isAscii (cp '{' :: (Json.joinWith (py ",") members ++ [cp '\n', cp '}', cp '\n'])) = true := by
    refine List.all_eq_true.mpr (List.forall_mem_cons.mpr ⟨by decide, List.forall_mem_append.mpr ⟨?_, hlast⟩⟩)
    exact (Json.joinWith_chars _ _ hcomma members).mpr hascii
  obtain ⟨content, hcontent⟩ := encodeUtf8_of_ascii _ hall
  exact ⟨content, (bind_eq_ok _ _ _).mpr ⟨members, hmembers, hcontent⟩⟩

end Serialised

section Answered

variable {cfg : Config} (env : (op : WorkerOp) → Except PyExc op.Res)
  (htotal : ∀ op : WorkerOp, op.total = true → ∃ b, env op = .ok b)

include htotal in
theorem answered_workerAns (op : WorkerOp) : WorkerAns ⟨op, env op⟩ op (env op) := .answered op (env op) (htotal op)

-- The call in which `env` answers every operation.
def callOf (op : TaskOp) : TaskCall cfg where
  op := op
  steps := ((body cfg op).calls env).map fun o => ⟨o, env o⟩
  answer := (body cfg op).result env
  runs := Prog.runs_answered env _ (answered_workerAns env htotal) (body cfg op)

variable (cfg) in
def returnOf (op : TaskOp) : Except PyExc op.Res := (body cfg op).result env

variable (cfg) in
def taskOf : Task cfg where
  calls := ((processOne cfg).calls (returnOf cfg env)).map (callOf env htotal)
  outcome := (processOne cfg).result (returnOf cfg env)
  runs := Prog.runs_answered _ _ (fun op => .mk op _ _ _) (processOne cfg)

include htotal in
-- An event that can be serialised is appended where the audit log is in order.
theorem returnOf_appendAudit (event : Fields) (h : Json.Fits false cfg.rt.nesting (.obj event))
    (haudit : ∀ op : AuditOp, ∃ b, env (.audit op) = .ok b) : returnOf cfg env (.appendAudit event) = .ok () := by
  obtain ⟨line, hline⟩ := eventLine_isOk cfg.rt (.obj event) h
  have hops : (body cfg (.appendAudit event)).Emits WorkerAns fun step => ∃ op, step.op = .audit op := by
    refine Prog.emits_lift _ _ (fun step op r hans => ?_) _
    cases hans
    exact ⟨op, rfl⟩
  have hruns := (@callOf cfg env htotal (.appendAudit event)).runs
  cases hreturn : returnOf cfg env (.appendAudit event) with
  | ok b => rfl
  | error e =>
      have hhindered := (appendAudit_hindered_iff _ event _ hruns).mpr ⟨e, hreturn⟩
      rcases hhindered with ⟨event', hevent, hnone⟩ | ⟨step, hstep, e', he, -⟩
      · obtain rfl : event = event' := Option.some.inj hevent
        exact absurd hline (hnone line)
      · obtain ⟨op, hop⟩ := hops _ _ hruns step hstep
        obtain ⟨o, -, rfl⟩ := List.mem_map.mp hstep
        obtain rfl : o = .audit op := hop
        obtain ⟨b, hb⟩ := haudit op
        rw [hb] at he
        cases he

-- What `atomic_result` comes to when the content of the file can be made.
theorem createResult_called (taskId : PyStr) (payload : Fields) (hid : isTaskId taskId = true)
    (h : ∀ f ∈ payload, Json.Fits false cfg.rt.nesting f.2) :
    .createResult taskId ∈ (body cfg (.atomicResult taskId payload)).calls env := by
  obtain ⟨content, hcontent⟩ := encodedResult_isOk cfg.rt payload h
  rw [body, atomicResult, if_pos hid]
  refine Prog.mem_calls_rest env _ _ content (by rw [Prog.result_ofExcept, hcontent]) _ ?_
  refine Prog.mem_calls_first env _ _ _ (Prog.mem_calls_catching env _ _ _ ?_)
  rw [Prog.calls_perform]
  exact List.mem_singleton_self _

theorem returnOf_atomicResult (taskId : PyStr) (payload : Fields) (hid : isTaskId taskId = true)
    (h : ∀ f ∈ payload, Json.Fits false cfg.rt.nesting f.2) (hcreate : env (.createResult taskId) = .ok ())
    (hopen : env (.openResult taskId) = .ok ()) (hwrite : ∀ content, env (.writeResult taskId content) = .ok ())
    (hsync : env (.syncResult taskId) = .ok ()) (hclose : env (.closeResult taskId) = .ok ()) :
    returnOf cfg env (.atomicResult taskId payload) = .ok () := by
  obtain ⟨content, hcontent⟩ := encodedResult_isOk cfg.rt payload h
  have hfill : (fillResult taskId content).result env = .ok () := by
    simp only [fillResult, Prog.result_bind, Prog.result_perform, Prog.result_finishing, hopen, hwrite, hsync, hclose,
      ok_bind]
  have hcreated : (createResult taskId).result env = .ok () :=
    Prog.result_catching_ok env _ _ () (by rw [Prog.result_perform, hcreate])
  rw [returnOf, body, atomicResult, if_pos hid, Prog.result_bind, Prog.result_ofExcept, hcontent, ok_bind,
    Prog.result_bind, hcreated, ok_bind]
  exact Prog.result_catching_ok env _ _ () hfill

end Answered

section System

variable (f : TaskFile) (ws : Workspace) (depth : Nat) (content : Bytes) (size : Except PyExc Nat)

-- A system on which this file is the only one that is pending. Apart from the size of the claimed file and from
-- what is not in the workspace everything succeeds.
def answerOf : (op : WorkerOp) → Except PyExc op.Res
  | .audit .utcNow => .ok sampleTime
  | .audit .makeParent => .ok ()
  | .audit .createLock => .ok ()
  | .audit (.writeLock _) => .ok ()
  | .audit .syncLock => .ok ()
  | .audit .openLog => .ok ()
  | .audit (.writeLine _) => .ok ()
  | .audit .syncLog => .ok ()
  | .audit .closeLog => .ok ()
  | .audit .closeLock => .ok ()
  | .audit .unlinkLock => .ok ()
  | .utcNow => .ok sampleTime
  | .uptime => .ok sampleUptime
  | .uuid4 => .ok sampleUuid
  | .listPending => .ok [f.val]
  | .countFiles _ => .ok sampleCount
  | .rename _ _ => .ok ()
  | .statClaimed _ => size
  | .readClaimed _ => .ok content
  | .resolveWorkspace relativePath => (ws.locate depth relativePath).map fun _ => relativePath
  | .readWorkspace _ => .ok []
  | .createResult _ => .ok ()
  | .openResult _ => .ok ()
  | .writeResult _ _ => .ok ()
  | .syncResult _ => .ok ()
  | .closeResult _ => .ok ()
  | .unlinkResult _ => .ok ()

theorem answerOf_total (op : WorkerOp) (h : op.total = true) : ∃ b, answerOf f ws depth content size op = .ok b := by
  cases op with
  | audit op =>
      cases op with
      | utcNow => exact ⟨_, rfl⟩
      | _ => cases h
  | utcNow => exact ⟨_, rfl⟩
  | uptime => exact ⟨_, rfl⟩
  | _ => cases h

theorem answerOf_audit (op : AuditOp) : ∃ b, answerOf f ws depth content size (.audit op) = .ok b := by
  cases op <;> exact ⟨_, rfl⟩

theorem answerOf_sees (hsize : ∀ n, size = .ok n → n = content.length) (ops : List WorkerOp) :
    Sees ws depth content (ops.map fun op => ⟨op, answerOf f ws depth content size op⟩) := by
  refine ⟨fun name n hmem => ?_, fun name bytes hmem => ?_, fun relativePath path hmem => ?_⟩
  · obtain ⟨op, -, hop⟩ := List.mem_map.mp hmem
    obtain ⟨rfl, hanswer⟩ := Answered.mk.inj hop
    exact hsize n (eq_of_heq hanswer)
  · obtain ⟨op, -, hop⟩ := List.mem_map.mp hmem
    obtain ⟨rfl, hanswer⟩ := Answered.mk.inj hop
    exact (Except.ok.inj (eq_of_heq hanswer)).symm
  · obtain ⟨op, -, hop⟩ := List.mem_map.mp hmem
    obtain ⟨rfl, hanswer⟩ := Answered.mk.inj hop
    have hlocated : (ws.locate depth relativePath).map (fun _ => relativePath) = .ok path := eq_of_heq hanswer
    cases hplace : ws.locate depth relativePath with
    | ok place => exact ⟨place, rfl⟩
    | error e =>
        rw [hplace] at hlocated
        cases hlocated

variable (cfg : Config)

def claimedAs : PyStr := claimName cfg f.val sampleUuid

abbrev systemTask : Task cfg :=
  taskOf cfg (answerOf f ws depth content size) (answerOf_total f ws depth content size)

theorem claimOne_answered : returnOf cfg (answerOf f ws depth content size) .claimOne = .ok (some (claimedAs f cfg)) ∧
    .rename ⟨.pending, f.val⟩ ⟨.processing, claimedAs f cfg⟩ ∈
      (body cfg .claimOne).calls (answerOf f ws depth content size) := by
  have hnames : ([f.val].filter isTaskFile).insertionSort (fun a b => strLe a b = true) = [f.val] := by
    rw [List.filter_cons_of_pos f.property]
    rfl
  rw [returnOf, body, claimOne]
  constructor
  · rw [Prog.result_bind, Prog.result_perform]
    change (claimFrom cfg (([f.val].filter isTaskFile).insertionSort _)).result _ = _
    rw [hnames]
    rfl
  · refine Prog.mem_calls_rest _ _ _ [f.val] (Prog.result_perform _ _) _ ?_
    rw [hnames, claimFrom]
    refine Prog.mem_calls_rest _ _ _ sampleUuid (Prog.result_perform _ _) _ ?_
    refine Prog.mem_calls_first _ _ _ _ ?_
    rw [Prog.calls_attempt, Prog.calls_perform]
    exact List.mem_singleton_self _

-- The file is handled as it is if its size is not misreported.
theorem systemTask_handles (hsize : ∀ n, size = .ok n → n = content.length) :
    (systemTask f ws depth content size cfg).Handles ws depth content f := by
  constructor
  · refine ⟨callOf _ _ .claimOne, List.mem_map_of_mem ?_, rfl, claimedAs f cfg, ?_⟩
    · refine Prog.mem_calls_first _ _ _ _ ?_
      rw [Prog.calls_perform]
      exact List.mem_singleton_self _
    · exact List.mem_map.mpr ⟨_, (claimOne_answered f ws depth content size cfg).2, rfl⟩
  · intro c hc
    obtain ⟨op, -, rfl⟩ := List.mem_map.mp hc
    exact answerOf_sees f ws depth content size hsize _

-- What is called for the claimed file is called in the run.
theorem mem_systemTask (op : TaskOp)
    (h : op ∈ (Prog.catching (recordFailure (claimedAs f cfg)) (complete cfg (claimedAs f cfg))).calls
      (returnOf cfg (answerOf f ws depth content size))) :
    callOf (answerOf f ws depth content size) (answerOf_total f ws depth content size) op ∈
      (systemTask f ws depth content size cfg).calls := by
  refine List.mem_map_of_mem ?_
  have hclaimed := (claimOne_answered f ws depth content size cfg).1
  refine Prog.mem_calls_rest _ _ _ (some (claimedAs f cfg)) ?_ op (Prog.mem_calls_first _ _ _ op h)
  rw [Prog.result_perform, hclaimed]

theorem fits_labels (event : Fields) (nesting : Nat) (hpos : 0 < nesting) (h : ∀ f ∈ event, ∃ s, f.2 = .str s) :
    Json.Fits false nesting (.obj event) := by
  refine ⟨hpos, (Json.fitsFields_iff _ _ _).mpr fun f hf => ?_⟩
  obtain ⟨s, hs⟩ := h f hf
  rw [hs]
  trivial

-- Something is written for a file whose size cannot be found out.
theorem systemTask_creates (hid : isTaskId f.head = true) :
    (systemTask f ws depth content (.error .fileNotFound) cfg).Creates f.head := by
  have hhead : taskIdOf (claimedAs f cfg) = f.head := taskIdOf_claimName f sampleUuid
  have hfails : ∃ e, (complete cfg (claimedAs f cfg)).result
      (returnOf cfg (answerOf f ws depth content (.error .fileNotFound))) = .error e := by
    have hclock : returnOf cfg (answerOf f ws depth content (.error .fileNotFound)) (.sys .utcNow) = .ok sampleTime :=
      rfl
    have hstat : returnOf cfg (answerOf f ws depth content (.error .fileNotFound))
        (.sys (.statClaimed (claimedAs f cfg))) = .error .fileNotFound := rfl
    rw [complete, Prog.result_bind, prepare, Prog.result_bind, Prog.result_perform, hclock, ok_bind, Prog.result_bind,
      Prog.result_perform]
    cases returnOf cfg (answerOf f ws depth content (.error .fileNotFound))
        (.appendAudit (claimedEvent cfg.workerId (taskIdOf (claimedAs f cfg)) sampleTime)) with
    | error e => exact ⟨e, rfl⟩
    | ok b =>
        rw [ok_bind, Prog.result_bind, Prog.result_perform, hstat]
        exact ⟨_, rfl⟩
  obtain ⟨e, he⟩ := hfails
  have hfields : ∀ g ∈ failureFields f.head sampleTime e, Json.Fits false cfg.rt.nesting g.2 := by
    intro g hg
    simp only [failureFields, label, List.mem_cons, List.not_mem_nil, or_false] at hg
    rcases hg with rfl | rfl | rfl | rfl | rfl | rfl <;> trivial
  have hcreate := createResult_called (answerOf f ws depth content (.error .fileNotFound)) f.head
    (failureFields f.head sampleTime e) hid hfields
  refine ⟨_, mem_systemTask f ws depth content _ cfg (.atomicResult f.head (failureFields f.head sampleTime e)) ?_,
    ⟨_, rfl⟩, _, List.mem_map.mpr ⟨_, hcreate, rfl⟩⟩
  rw [Prog.calls_catching_error _ _ _ e he]
  refine List.mem_append_right _ (Prog.mem_calls_rest _ _ _ sampleTime (Prog.result_perform _ _) _ ?_)
  refine Prog.mem_calls_first _ _ _ _ (Prog.mem_calls_catching _ _ _ _ ?_)
  rw [Prog.calls_perform, hhead]
  exact List.mem_singleton_self _

theorem isAscii_lower (s : PyStr) (h : isAscii s = true) : isAscii (lower s) = true := by
  refine List.all_eq_true.mpr fun d hd => ?_
  obtain ⟨c, hc, rfl⟩ := List.mem_map.mp hd
  have hascii := List.all_eq_true.mp h c hc
  by_cases hupper : 0x41 ≤ c.val ∧ c.val ≤ 0x5A
  · rw [if_pos hupper]
    have hval : (chr (c.val + 32)).val = c.val + 32 := Nat.mod_eq_of_lt (by omega)
    refine decide_eq_true ?_
    rw [hval]
    omega
  · rw [if_neg hupper]
    exact hascii

theorem isAscii_of_isSha256 (s : PyStr) (h : isSha256 s = true) : isAscii s = true := by
  refine List.all_eq_true.mpr fun c hc => ?_
  have hchar := List.all_eq_true.mp (Bool.and_eq_true_iff.mp h).2 c hc
  rcases Bool.or_eq_true_iff.mp hchar with hhex | hupper
  · exact isAscii_of_isHexChar c hhex
  · simp only [Bool.and_eq_true, decide_eq_true_eq] at hupper
    exact decide_eq_true (by omega)

theorem fits_result (r : TaskResult) (limit : Nat) (h : ∀ g ∈ r.finding.fields, Json.Fits false limit g.2) :
    ∀ g ∈ r.fields, Json.Fits false limit g.2 := by
  refine List.forall_mem_append.mpr ⟨fun g hg => ?_, h⟩
  simp only [label, List.mem_cons, List.not_mem_nil, or_false] at hg
  rcases hg with rfl | rfl | rfl | rfl | rfl | rfl | rfl <;> trivial

theorem fits_fileFields (relativePath digest : PyStr) (limit : Nat) :
    ∀ g ∈ fileFields relativePath digest 0, Json.Fits false limit g.2 := by
  intro g hg
  simp only [fileFields, label, entry, List.mem_cons, List.not_mem_nil, or_false] at hg
  rcases hg with rfl | rfl | rfl | rfl
  · trivial
  · trivial
  · rw [Json.Fits]
    decide
  · trivial

-- The comparison of an empty file.
theorem compareFile_isOk (task : Json) (action : TaskAction) (relativePath : PyStr)
    (h : action = .verifySha256 → ∃ expected, expectedSha256 (taskGet "expected_sha256" task) = .ok expected)
    (hhealth : action ≠ .healthSnapshot) (limit : Nat) :
    ∃ finding, compareFile cfg task action relativePath [] = .ok finding ∧
      ∀ g ∈ finding.fields, Json.Fits false limit g.2 := by
  unfold compareFile
  cases action with
  | healthSnapshot => exact absurd rfl hhealth
  | sha256File => exact ⟨_, rfl, fits_fileFields _ _ limit⟩
  | verifySha256 =>
      obtain ⟨expected, hexpected⟩ := h rfl
      have hsha : isSha256 expected = true := by
        unfold expectedSha256 at hexpected
        split at hexpected
        next s _ =>
            by_cases hs : isSha256 s = true
            · rw [if_pos hs] at hexpected
              rwa [← Except.ok.inj hexpected]
            · rw [if_neg hs] at hexpected
              cases hexpected
        next => cases hexpected
      have hcompare : compareDigest (lower (cfg.rt.sha256Hex [])) (lower expected) =
          some (lower (cfg.rt.sha256Hex []) = lower expected : Bool) := by
        have hdigest : isAscii (cfg.rt.sha256Hex []) = true := isAscii_hexdigest _
        rw [compareDigest, isAscii_lower _ hdigest, isAscii_lower _ (isAscii_of_isSha256 expected hsha)]
        rfl
      refine ⟨.verification relativePath (cfg.rt.sha256Hex []) 0
        (lower (cfg.rt.sha256Hex []) = lower expected : Bool), ?_, ?_⟩
      · dsimp only
        rw [if_neg (by decide), hexpected, ok_bind, hcompare]
        rfl
      · refine List.forall_mem_append.mpr ⟨fits_fileFields _ _ limit, fun g hg => ?_⟩
        simp only [label, entry, List.mem_cons, List.not_mem_nil, or_false] at hg
        rcases hg with rfl | rfl <;> trivial

theorem executeTask_answered (task : Json) (taskId : PyStr) (envelope : Envelope)
    (hvalid : validateTaskEnvelope task taskId = .ok envelope) (h : Performable ws depth task envelope.action) :
    ∃ result, returnOf cfg (answerOf f ws depth content size) (.executeTask task taskId) = .ok result ∧
      ∀ g ∈ result.fields, Json.Fits false cfg.rt.nesting g.2 := by
  rw [returnOf, body, executeTask, Prog.result_bind, Prog.result_ofExcept, hvalid, ok_bind, Prog.result_bind,
    Prog.result_perform, answerOf, ok_bind]
  by_cases hhealth : envelope.action = .healthSnapshot
  · rw [if_pos hhealth]
    refine ⟨_, rfl, fits_result _ _ fun g hg => ?_⟩
    simp only [Finding.fields, label, entry, List.mem_cons, List.not_mem_nil, or_false] at hg
    rcases hg with rfl | rfl | rfl | rfl | rfl
    · trivial
    · trivial
    · exact .inr sampleUptime.property
    · rw [Json.Fits]
      decide
    · rw [Json.Fits]
      decide
  · rw [if_neg hhealth]
    obtain ⟨place, hplace⟩ := h.1 hhealth
    obtain ⟨relativePath, hrequire, hlocate⟩ := (bind_eq_ok _ _ _).mp hplace
    obtain ⟨finding, hfinding, hfits⟩ :=
      compareFile_isOk cfg task envelope.action relativePath h.2 hhealth cfg.rt.nesting
    refine ⟨⟨taskId, envelope, sampleTime, finding⟩, ?_, fits_result _ _ hfits⟩
    have hresolve : answerOf f ws depth content size (.resolveWorkspace relativePath) = .ok relativePath := by
      rw [answerOf, hlocate]
      rfl
    have hread : answerOf f ws depth content size (.readWorkspace relativePath) = .ok [] := rfl
    rw [Prog.result_bind, Prog.result_ofExcept, hrequire, ok_bind, Prog.result_bind, Prog.result_perform, hresolve,
      ok_bind, Prog.result_bind, Prog.result_perform, hread, ok_bind, Prog.result_bind, Prog.result_ofExcept, hfinding]
    rfl

theorem nesting_pos (rt : Runtime) (content : Bytes) (task : Json) (taskId : PyStr) (envelope : Envelope)
    (hread : readTask rt content = .ok task) (hvalid : validateTaskEnvelope task taskId = .ok envelope) :
    0 < rt.nesting := by
  obtain ⟨text, -, htext⟩ := (bind_eq_ok _ _ _).mp hread
  have hfits := (Json.loads_sound rt.nesting text task ((loadsText_eq_ok rt text task).mp htext)).2
  cases task with
  | obj fields => exact hfits.1
  | _ => cases hvalid

theorem envelope_of_valid (task : Json) (taskId : PyStr) (envelope : Envelope)
    (h : validateTaskEnvelope task taskId = .ok envelope) :
    taskGet "task_id" task = some (.str taskId) ∧ isTaskId taskId = true := by
  cases task with
  | obj fields =>
      unfold validateTaskEnvelope at h
      dsimp only at h
      by_cases hrefused : Json.lookup (py "task_id") fields ≠ some (.str taskId) ∨ isTaskId taskId = false
      · rw [if_pos hrefused] at h
        split at h <;> cases h
      · obtain ⟨hlookup, hid⟩ := not_or.mp hrefused
        exact ⟨not_not.mp hlookup, Bool.eq_true_of_not_eq_false hid⟩
  | _ => cases h

-- What can be executed is executed where nothing fails.
theorem systemTask_completes (h : Executable cfg ws depth content f.head) :
    (systemTask f ws depth content (.ok content.length) cfg).Completes := by
  have hhead : taskIdOf (claimedAs f cfg) = f.head := taskIdOf_claimName f sampleUuid
  obtain ⟨hlength, task, envelope, hread, hvalid, hperform⟩ := h
  have hpos := nesting_pos cfg.rt content task f.head envelope hread hvalid
  have happend : ∀ event, (∀ g ∈ event, ∃ s, g.2 = .str s) →
      returnOf cfg (answerOf f ws depth content (.ok content.length)) (.appendAudit event) = .ok () :=
    fun event hevent => returnOf_appendAudit _ (answerOf_total f ws depth content _) event
      (fits_labels event _ hpos hevent) (answerOf_audit f ws depth content _)
  obtain ⟨result, hresult, hfits⟩ :=
    executeTask_answered f ws depth content (.ok content.length) cfg task f.head envelope hvalid hperform
  have hprepare : (prepare cfg (claimedAs f cfg)).result
      (returnOf cfg (answerOf f ws depth content (.ok content.length))) =
      .ok result := by
    have hclock : returnOf cfg (answerOf f ws depth content (.ok content.length)) (.sys .utcNow) = .ok sampleTime := rfl
    have hstat : returnOf cfg (answerOf f ws depth content (.ok content.length))
        (.sys (.statClaimed (claimedAs f cfg))) = .ok content.length := rfl
    have hcontent : returnOf cfg (answerOf f ws depth content (.ok content.length))
        (.sys (.readClaimed (claimedAs f cfg))) = .ok content := rfl
    rw [prepare, Prog.result_bind, Prog.result_perform, hclock, ok_bind, Prog.result_bind, Prog.result_perform,
      happend _ ?_, ok_bind, Prog.result_bind, Prog.result_perform, hstat, ok_bind, if_neg (by omega), Prog.result_bind,
      Prog.result_perform, hcontent, ok_bind, Prog.result_bind, Prog.result_ofExcept, hread, ok_bind, Prog.result_bind,
      Prog.result_ofExcept, hhead, hvalid, ok_bind, Prog.result_bind, Prog.result_perform, hclock, ok_bind,
      Prog.result_bind, Prog.result_perform, happend _ ?_, ok_bind, Prog.result_perform, hresult]
    · simp [startedEvent, label]
    · simp [claimedEvent, label]
  have hid : isTaskId f.head = true := (envelope_of_valid task f.head envelope hvalid).2
  have hwritten : returnOf cfg (answerOf f ws depth content (.ok content.length)) (.atomicResult f.head result.fields) =
      .ok () :=
    returnOf_atomicResult _ f.head result.fields hid hfits rfl rfl (fun _ => rfl) rfl rfl
  refine ⟨_, mem_systemTask f ws depth content _ cfg (.atomicResult f.head result.fields) ?_, ?_⟩
  · refine Prog.mem_calls_catching _ _ _ _ (Prog.mem_calls_rest _ _ _ result hprepare _ ?_)
    refine Prog.mem_calls_first _ _ _ _ ?_
    rw [Prog.calls_perform, hhead]
    exact List.mem_singleton_self _
  · refine wrote_of_returned "COMPLETED" _ (f.head, result.fields) rfl result.lookup_status ?_
    exact congrArg Except.toBool hwritten

end System

section Correspondence

variable {cfg : Config} {ws : Workspace} {depth : Nat}

theorem documentId_of_executable (content : Bytes) (taskId : PyStr) (h : Executable cfg ws depth content taskId) :
    DocumentId cfg content taskId := by
  obtain ⟨-, task, envelope, hread, hvalid, -⟩ := h
  exact ⟨task, hread, (envelope_of_valid task taskId envelope hvalid).1⟩

theorem documentId_unique (content : Bytes) (taskId other : PyStr) (h : DocumentId cfg content taskId)
    (hother : DocumentId cfg content other) : taskId = other := by
  obtain ⟨task, hread, hget⟩ := h
  obtain ⟨task', hread', hget'⟩ := hother
  rw [hread] at hread'
  obtain rfl := Except.ok.inj hread'
  rw [hget] at hget'
  exact Json.str.inj (Option.some.inj hget')

-- The only file that is created for a claimed one.
theorem creates_head (t : Task cfg) (f : TaskFile) (hclaims : t.Claims f) (taskId : PyStr) (h : t.Creates taskId) :
    taskId = f.head ∧ isTaskId f.head = true := by
  obtain ⟨claimed, first, rest, r, hid, hcalls, hfirst, hrun⟩ := claims_runs t f hclaims
  obtain ⟨c, hc, ⟨payload, hwrites⟩, answer, hcreate⟩ := h
  rw [hcalls] at hc
  rcases List.mem_cons.mp hc with rfl | hrest
  · rw [hfirst] at hwrites
    cases hwrites
  · have hworking := (complete_working claimed).catching (recordFailure_working claimed) _ _ hrun c hrest
    obtain rfl : taskId = f.head := (hworking.writes taskId payload hwrites).trans hid
    refine ⟨rfl, ?_⟩
    obtain ⟨op, steps, r, runs⟩ := c
    cases op with
    | atomicResult taskId' payload' =>
        obtain ⟨rfl, rfl⟩ := Prod.mk.inj (Option.some.inj hwrites)
        by_contra hbad
        rw [body, atomicResult, if_neg hbad] at runs
        obtain ⟨rfl, -⟩ := (Prog.runs_raise _ _ _).mp runs
        cases hcreate
    | _ => cases hwrites

variable (cfg ws depth)

-- A task is executed only under the name of its file exactly when that name has no dot in front of `.json`, or the
-- document cannot be executed under what stands in front of the first one. Two files never compete for a result
-- exactly when this differs in their names, or is no task id.
theorem task_files_correspond_iff :
    (∀ (f : TaskFile) (content : Bytes),
      (∀ t : Task cfg, t.Handles ws depth content f → t.Completes → DocumentId cfg content f.base) ↔
        cp '.' ∉ f.base ∨ ¬ Executable cfg ws depth content f.head) ∧
    ∀ (f g : TaskFile) (content content' : Bytes), f ≠ g →
      ((∀ t t' : Task cfg, t.Handles ws depth content f → t'.Handles ws depth content' g →
        ∀ taskId, ¬ (t.Creates taskId ∧ t'.Creates taskId)) ↔ f.head ≠ g.head ∨ isTaskId f.head = false) := by
  refine ⟨fun f content => ⟨fun h => ?_, fun hcond t hhandles hcompletes => ?_⟩,
    fun f g content content' _ => ⟨fun h => ?_, fun hcond t t' hf hg taskId hcreates => ?_⟩⟩
  · by_contra hneither
    obtain ⟨hdot, hexecutable⟩ := not_or.mp hneither
    have hexecutable := not_not.mp hexecutable
    have hbase := h _ (systemTask_handles f ws depth content (.ok content.length) cfg fun n hn =>
      (Except.ok.inj hn).symm) (systemTask_completes f ws depth content cfg hexecutable)
    have hhead := documentId_unique content _ _ (documentId_of_executable content f.head hexecutable) hbase
    exact hdot (f.head_eq_base_iff.mp hhead)
  · have hexecutable := executable_of_completes t f hhandles hcompletes
    rw [← f.head_eq_base_iff.mpr (hcond.resolve_right fun hno => hno hexecutable)]
    exact documentId_of_executable content f.head hexecutable
  · by_contra hneither
    obtain ⟨hsame, hid⟩ := not_or.mp hneither
    have hsame := not_not.mp hsame
    have hid := Bool.eq_true_of_not_eq_false hid
    refine h _ _ (systemTask_handles f ws depth content (.error .fileNotFound) cfg fun n hn => by cases hn)
      (systemTask_handles g ws depth content' (.error .fileNotFound) cfg fun n hn => by cases hn) f.head
      ⟨systemTask_creates f ws depth content cfg hid, ?_⟩
    rw [hsame]
    exact systemTask_creates g ws depth content' cfg (hsame ▸ hid)
  · obtain ⟨hfirst, hid⟩ := creates_head t f hf.1 taskId hcreates.1
    obtain ⟨hsecond, -⟩ := creates_head t' g hg.1 taskId hcreates.2
    rcases hcond with hne | hbad
    · exact hne (hfirst.symm.trans hsecond)
    · rw [hid] at hbad
      cases hbad

end Correspondence

section Sample

def contentOf (taskId : PyStr) : Bytes :=
  (eventLine sampleConfig.rt (.obj [label "task_id" taskId, label "action" (py "health_snapshot"),
    label "purpose" (py "Check the queue."), label "expected_effect" (py "A result file.")])).toOption.getD []

theorem executable_of_check (content : Bytes) (taskId : PyStr) (hlength : content.length ≤ maxTaskBytes)
    (h : ((readTask sampleConfig.rt content).toOption.any fun task =>
      (validateTaskEnvelope task taskId).toOption.any fun e => e.action = .healthSnapshot) = true) :
    Executable sampleConfig Workspace.sampleWorkspace 0 content taskId := by
  obtain ⟨task, htask, henvelope⟩ : ∃ task, readTask sampleConfig.rt content = .ok task ∧
      ((validateTaskEnvelope task taskId).toOption.any fun e => e.action = .healthSnapshot) = true := by
    cases hread : readTask sampleConfig.rt content with
    | ok task =>
        rw [hread] at h
        exact ⟨task, rfl, h⟩
    | error e =>
        rw [hread] at h
        cases h
  obtain ⟨envelope, hvalid, haction⟩ : ∃ e, validateTaskEnvelope task taskId = .ok e ∧ e.action = .healthSnapshot := by
    cases hvalid : validateTaskEnvelope task taskId with
    | ok e =>
        rw [hvalid] at henvelope
        exact ⟨e, rfl, of_decide_eq_true henvelope⟩
    | error e =>
        rw [hvalid] at henvelope
        cases henvelope
  refine ⟨hlength, task, envelope, htask, hvalid, ?_, ?_⟩
  · exact fun hne => absurd haction hne
  · intro hverify
    rw [haction] at hverify
    cases hverify

def dotlessFile : TaskFile := ⟨py "a.json", by decide⟩

def dottedFile : TaskFile := ⟨py "a.b.json", by decide⟩

-- The task of `a.json` is executed, and its document says so.
theorem dotless_file_corresponds :
    (∀ t : Task sampleConfig, t.Handles Workspace.sampleWorkspace 0 (contentOf (py "a")) dotlessFile → t.Completes →
      DocumentId sampleConfig (contentOf (py "a")) dotlessFile.base) ∧
    ∃ t : Task sampleConfig, t.Handles Workspace.sampleWorkspace 0 (contentOf (py "a")) dotlessFile ∧ t.Completes := by
  refine ⟨((task_files_correspond_iff sampleConfig Workspace.sampleWorkspace 0).1 dotlessFile _).mpr
    (.inl (by decide)), ?_⟩
  have hexecutable := executable_of_check (contentOf (py "a")) (py "a") (by decide +kernel) (by decide +kernel)
  exact ⟨_, systemTask_handles dotlessFile Workspace.sampleWorkspace 0 _ _ sampleConfig fun n hn =>
    (Except.ok.inj hn).symm, systemTask_completes dotlessFile Workspace.sampleWorkspace 0 _ sampleConfig hexecutable⟩

-- The document of `a.b.json` is executed as the task `a`.
theorem dotted_file_executed : ¬ ∀ (f : TaskFile) (content : Bytes) (t : Task sampleConfig),
    t.Handles Workspace.sampleWorkspace 0 content f → t.Completes → DocumentId sampleConfig content f.base := by
  intro h
  have hexecutable := executable_of_check (contentOf (py "a")) (py "a") (by decide +kernel) (by decide +kernel)
  have hbase := h dottedFile _ _
    (systemTask_handles dottedFile Workspace.sampleWorkspace 0 _ _ sampleConfig fun n hn => (Except.ok.inj hn).symm)
    (systemTask_completes dottedFile Workspace.sampleWorkspace 0 (contentOf (py "a")) sampleConfig hexecutable)
  exact absurd (documentId_unique _ _ _ (documentId_of_executable _ _ hexecutable) hbase) (by decide)

end Sample

end V91Core.Worker
